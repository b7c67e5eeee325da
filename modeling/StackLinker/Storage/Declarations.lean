/-
# Declarations

The variables of a program in the order of their first declaration.
-/
import StackLinker.Code.NodeId
import StackLinker.OrderedMap.Basic

namespace StackLinker

/-- What kind of storage a variable is. -/
inductive SlotKind where
  | scalar | array | string | other
  deriving DecidableEq

/-- The storage of a variable. -/
structure Slot where
  kind : SlotKind
  /-- The number of storage units. -/
  size : UInt64 := 0
  /-- The node that gets the offset of a scalar, or of a variable of no special kind. -/
  link : Option NodeId := none
  deriving DecidableEq

/-- The declared variables, in the order of their first declaration; a later declaration of a name
replaces the storage and keeps the place. -/
abbrev Declarations := OrderedMap String Slot

/-- Declares a variable; the first part of the answer is the storage that the name had before. -/
def Declarations.declare (declarations : Declarations) (name : String) (slot : Slot) :
    Option Slot × Declarations :=
  (declarations.get? name, declarations.insert name slot)

end StackLinker
