/-
# Making and writing a storage plan

Whatever its kind, visiting a variable writes its base to the node that is linked to it and then
shifts what is listed for it.  The planned numbers are an overlay on the code: after the plan is
written each node carries its planned number, or its own payload if there is none, and the number
from which a node is shifted is the one it would carry then.
-/
import StackLinker.Storage.Plan
import StackLinker.Proofs.OrderedMap
import StackLinker.Proofs.Code.Payloads

namespace StackLinker

/-! ## Visiting a variable -/

/-- The nodes that are listed for a variable and shifted by its base: the entries of an array or of
a string in the table of that kind, and none for any other variable. -/
def Slot.listed (tables : EntryTables) (name : String) (slot : Slot) : List NodeId :=
  match slot.kind with
  | .array => tables.arrays.entriesOf name
  | .string => tables.strings.entriesOf name
  | .scalar | .other => []

/-- The node that gets the base of a variable: the one that a scalar or a variable of no special
kind links to, and none for an array or a string. -/
def Slot.linked (slot : Slot) : Option NodeId :=
  match slot.kind with
  | .array | .string => none
  | .scalar | .other => slot.link

namespace StoragePlan

/-- The plan with a number for a node, if there is one and it lies in the code. -/
def writeLinked (code : Code) (plan : StoragePlan) (value : Offset) : Option NodeId → StoragePlan
  | some id => if code.contains id then plan.write id value else plan
  | none => plan

variable {plan : StoragePlan} {name : String} {base : Offset}

/-- A variable without a place is passed over. -/
theorem visit_of_unplaced (code : Code) (tables : EntryTables) (slot : Slot)
    (h : plan.layout.base? name = none) : visit code tables plan (name, slot) = .ok plan := by
  simp only [visit, h]

/-- **One variable.**  Visiting a variable that has a place writes its base to the linked node and
shifts the listed ones, of a string with reports. -/
theorem visit_of_base? (code : Code) (tables : EntryTables) (slot : Slot)
    (h : plan.layout.base? name = some base) :
    visit code tables plan (name, slot) =
      (slot.listed tables name).foldlM (shift code name base (slot.kind = .string))
        (plan.writeLinked code base slot.linked) := by
  simp only [visit, h, Slot.listed, Slot.linked]
  cases slot.kind with
  | array => rfl
  | string => rfl
  | scalar => cases slot.link <;> rfl
  | other => cases slot.link <;> rfl

/-! ## Writing the plan -/

/-- Writing a plan is a series of payload writes. -/
theorem apply_eq_writeAll (plan : StoragePlan) (code : Code) :
    plan.apply code = code.writeAll (plan.writes.entries.map fun e => (e.1, .number e.2)) := by
  rw [apply, Code.writeAll, List.foldl_map]

/-- The number planned for a node, as a payload. -/
def payload? (plan : StoragePlan) (id : NodeId) : Option Payload :=
  (plan.writes.get? id).map Payload.number

/-- After a plan is written a node carries its planned number. -/
theorem get?_apply (plan : StoragePlan) (code : Code) (id : NodeId) :
    (plan.apply code).get? id = (code.get? id).map fun n => n.overwrite (plan.payload? id) := by
  have hkeys :
      ((plan.writes.entries.map fun e => (e.1, Payload.number e.2)).map Prod.fst).Nodup := by
    rw [List.map_map]
    exact plan.writes.nodup_keys
  have hlookup : ∀ entries : List (NodeId × Offset),
      (entries.map fun e => (e.1, Payload.number e.2)).lookup id =
        (entries.lookup id).map Payload.number := by
    intro entries
    induction entries with
    | nil => rfl
    | cons e rest ih =>
      obtain ⟨place, value⟩ := e
      rw [List.map_cons, OrderedMap.lookup_cons_eq_ite, OrderedMap.lookup_cons_eq_ite, ih]
      split <;> rfl
  rw [apply_eq_writeAll, Code.get?_writeAll, OrderedMap.lookup_reverse hkeys, hlookup]
  rfl

/-- Writing a plan keeps the outline. -/
theorem outline_apply (plan : StoragePlan) (code : Code) :
    (plan.apply code).outline = code.outline := by
  rw [apply_eq_writeAll, Code.outline_eq_of_skeleton (Code.skeleton_writeAll code _)]

/-- One more planned number is one more payload write. -/
theorem apply_write (plan : StoragePlan) (id : NodeId) (value : Offset) (code : Code) :
    (plan.write id value).apply code = (plan.apply code).setPayload id (.number value) := by
  apply Code.ext_get?
  intro place
  rw [get?_apply, Code.get?_setPayload, get?_apply, Option.map_map]
  congr 1
  funext n
  rw [Function.comp, Node.overwrite_overwrite, payload?, payload?, write, OrderedMap.get?_insert]
  by_cases h : place = id
  · rw [if_pos h, if_pos h]
    rfl
  · rw [if_neg h, if_neg h, Option.none_or]

/-- **Read through the overlay.**  The number from which a node is shifted is the one that it
carries once the plan is written. -/
theorem relative_eq (plan : StoragePlan) (id : NodeId) (n : Node) :
    plan.relative id n = (n.overwrite (plan.payload? id)).relativeOffset := by
  rw [relative, payload?]
  cases plan.writes.get? id <;> rfl

end StoragePlan

end StackLinker
