/-
# Storage layouts

Variables are placed back to back in the order of their declaration, from a base on, with no gap
between them.
-/
import StackLinker.Fault
import StackLinker.Storage.Declarations

namespace StackLinker

/-! ## Layouts -/

/-- Where a variable is. -/
structure Placement where
  /-- The offset of its first storage unit. -/
  base : Offset
  /-- The offset that is reported for it. -/
  position : Offset
  deriving DecidableEq

/-- Where the variables are, in the order of their declaration. -/
structure Layout where
  /-- The placement of each variable. -/
  placements : OrderedMap String Placement := ∅
  /-- The offset after the last storage unit. -/
  stop : Offset := 0
  deriving DecidableEq

namespace Layout

/-- The offset of the first storage unit of a variable. -/
def base? (layout : Layout) (name : String) : Option Offset :=
  (layout.placements.get? name).map Placement.base

/-- The offset that is reported for a variable. -/
def position? (layout : Layout) (name : String) : Option Offset :=
  (layout.placements.get? name).map Placement.position

/-- The layout that reports another offset for a variable. -/
def report (layout : Layout) (name : String) (position : Offset) : Layout :=
  match layout.placements.get? name with
  | some placement =>
    { layout with placements := layout.placements.insert name { placement with position } }
  | none => layout

/-- The layout with one more variable after the others. -/
def place (layout : Layout) (name : String) (slot : Slot) : Except Fault Layout :=
  match layout.stop.advance? slot.size with
  | some stop => .ok ⟨layout.placements.insert name ⟨layout.stop, layout.stop⟩, stop⟩
  | none => .error (.memoryOverflow name)

end Layout

/-! ## Planning -/

/-- The layout of the declared variables from a base. -/
def Declarations.layout (declarations : Declarations) (base : Offset) : Except Fault Layout :=
  declarations.entries.foldlM (fun layout e => layout.place e.1 e.2) ⟨∅, base⟩

end StackLinker
