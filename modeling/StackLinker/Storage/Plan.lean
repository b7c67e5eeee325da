/-
# Storage plans

What depends on the place of a variable gets its final number from the layout. An entry of an array
or of a string gets its relative offset and the base of its variable; the node that a scalar links
to gets the base itself. All numbers are planned before one payload is written, so an offset that
does not fit leaves the code as it was.
-/
import StackLinker.Code.Basic
import StackLinker.Storage.EntryTables
import StackLinker.Storage.Layout

namespace StackLinker

/-- A layout with the numbers it implies. -/
structure StoragePlan where
  layout : Layout
  /-- The number that each node is to carry, in the order in which the nodes were first planned. -/
  writes : OrderedMap NodeId Offset := ∅
  deriving DecidableEq

namespace StoragePlan

/-! ## Planning -/

/-- The plan with a number for a node. -/
def write (plan : StoragePlan) (id : NodeId) (value : Offset) : StoragePlan :=
  { plan with writes := plan.writes.insert id value }

/-- The number from which a node is shifted: the planned one if there is one, as if it were written
already. -/
def relative (plan : StoragePlan) (id : NodeId) (n : Node) : Offset :=
  (plan.writes.get? id).getD n.relativeOffset

/-- Shifts one entry of a variable by its base.  An entry outside the code is passed over.  A string
reports the number of its last entry as its position. -/
def shift (code : Code) (name : String) (base : Offset) (reporting : Bool) (plan : StoragePlan)
    (id : NodeId) : Except Fault StoragePlan :=
  match code.get? id with
  | none => .ok plan
  | some n =>
    match (plan.relative id n).add? base with
    | none => .error (.memoryOverflow name)
    | some value =>
      let layout := if reporting then plan.layout.report name value else plan.layout
      .ok { plan.write id value with layout }

/-- Plans what depends on the place of one variable. -/
def visit (code : Code) (tables : EntryTables) (plan : StoragePlan) (declared : String × Slot) :
    Except Fault StoragePlan :=
  match plan.layout.base? declared.1 with
  | none => .ok plan
  | some base =>
    match declared.2.kind with
    | .array => (tables.arrays.entriesOf declared.1).foldlM (shift code declared.1 base false) plan
    | .string => (tables.strings.entriesOf declared.1).foldlM (shift code declared.1 base true) plan
    | .scalar | .other =>
      match declared.2.link with
      | some id => .ok (if code.contains id then plan.write id base else plan)
      | none => .ok plan

end StoragePlan

/-- The layout of the declared variables from a base, with the numbers it implies for the code. -/
def planStorage (declarations : Declarations) (tables : EntryTables) (code : Code)
    (base : Offset) : Except Fault StoragePlan :=
  match declarations.layout base with
  | .error fault => .error fault
  | .ok layout => declarations.entries.foldlM (StoragePlan.visit code tables) ⟨layout, ∅⟩

/-! ## Writing -/

/-- Writes the planned numbers. -/
def StoragePlan.apply (plan : StoragePlan) (code : Code) : Code :=
  plan.writes.entries.foldl (fun code e => code.setPayload e.1 (.number e.2)) code

/-- Plans and writes in one step; the second part of the answer is the code that is left. -/
def assignStorage (declarations : Declarations) (tables : EntryTables) (code : Code)
    (base : Offset) : Except Fault Layout × Code :=
  match planStorage declarations tables code base with
  | .error fault => (.error fault, code)
  | .ok plan => (.ok plan.layout, plan.apply code)

end StackLinker
