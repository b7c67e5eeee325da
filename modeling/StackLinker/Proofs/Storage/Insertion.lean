/-
# Storage plans for code with a node inserted

Links of variables and entries of tables move with the nodes to which they lead.  A plan for the
code with a node inserted places the variables as before, and has for each old node at its new place
the number that it had.  What the new node holds is never read, since nothing leads there.
-/
import StackLinker.Proofs.Code.Insertion
import StackLinker.Proofs.Storage.Plan
import StackLinker.Proofs.Sequencing

namespace StackLinker

/-! ## Variables and tables -/

/-- The storage of a variable with its link moved on. -/
def Slot.renumber (place : NodeId) (slot : Slot) : Slot :=
  { slot with link := slot.link.map (NodeId.past place) }

/-- The declared variables with their links moved on. -/
def Declarations.renumber (place : NodeId) (declarations : Declarations) : Declarations :=
  declarations.mapValues (Slot.renumber place)

/-- The table with its entries moved on. -/
def EntryTable.renumber (place : NodeId) (table : EntryTable) : EntryTable :=
  table.mapValues (List.map (NodeId.past place))

/-- The tables with their entries moved on. -/
def EntryTables.renumber (place : NodeId) (tables : EntryTables) : EntryTables :=
  ⟨tables.arrays.renumber place, tables.strings.renumber place⟩

/-- Under each name there are the old entries, moved on. -/
theorem EntryTable.entriesOf_renumber (place : NodeId) (table : EntryTable) (name : String) :
    (table.renumber place).entriesOf name = (table.entriesOf name).map (NodeId.past place) := by
  rw [entriesOf, entriesOf, renumber, OrderedMap.get?_mapValues]
  cases table.get? name <;> rfl

/-- What is listed for a variable moves on. -/
theorem Slot.listed_renumber (place : NodeId) (tables : EntryTables) (name : String) (slot : Slot) :
    (slot.renumber place).listed (tables.renumber place) name =
      (slot.listed tables name).map (NodeId.past place) := by
  have hkind : (slot.renumber place).kind = slot.kind := rfl
  rw [listed, listed, hkind]
  cases slot.kind with
  | array => exact EntryTable.entriesOf_renumber place tables.arrays name
  | string => exact EntryTable.entriesOf_renumber place tables.strings name
  | scalar | other => rfl

/-- The node that is linked to a variable moves on. -/
theorem Slot.linked_renumber (place : NodeId) (slot : Slot) :
    (slot.renumber place).linked = slot.linked.map (NodeId.past place) := by
  have hkind : (slot.renumber place).kind = slot.kind := rfl
  rw [linked, linked, hkind]
  cases slot.kind <;> rfl

/-- Links take no part in placing variables. -/
theorem Declarations.layout_renumber (place : NodeId) (declarations : Declarations)
    (base : Offset) :
    (declarations.renumber place).layout base = declarations.layout base :=
  List.foldlM_map

/-! ## Plans -/

namespace StoragePlan

variable {place : Nat} {marker : Node} {code : Code} {plan plan' next next' : StoragePlan}
  {name : String} {base : Offset}

/-- A plan that has the variables where another has them, and for every old node at its new place
the number that the other has for it. -/
structure Renumbers (place : NodeId) (plan plan' : StoragePlan) : Prop where
  layout : plan'.layout = plan.layout
  number : ∀ id, plan'.writes.get? (NodeId.past place id) = plan.writes.get? id

/-- Planning one number for an old node in both keeps it. -/
theorem Renumbers.write (h : plan.Renumbers place plan') (id : NodeId) (value : Offset) :
    (plan.write id value).Renumbers place (plan'.write (NodeId.past place id) value) := by
  refine ⟨h.layout, ?_⟩
  intro id'
  have hid : NodeId.past place id' = NodeId.past place id ↔ id' = id :=
    ⟨NodeId.past_inj, congrArg (NodeId.past place)⟩
  rw [StoragePlan.write, StoragePlan.write, OrderedMap.get?_insert, OrderedMap.get?_insert]
  by_cases heq : id' = id
  · rw [if_pos heq, if_pos (hid.mpr heq)]
  · rw [if_neg heq, if_neg fun hpast => heq (hid.mp hpast), h.number]

/-- **One entry.**  An entry is shifted at its new place as it was at its old one. -/
theorem Renumbers.shift {reporting : Bool} {id : NodeId} (hplace : place ≤ code.size)
    (h : plan.Renumbers place plan')
    (hnext : plan.shift code name base reporting id = .ok next)
    (hnext' : plan'.shift (code.insertNode place marker) name base reporting
      (NodeId.past place id) = .ok next') :
    next.Renumbers place next' := by
  rw [StoragePlan.shift, Code.get?_insertNode hplace] at hnext'
  rw [StoragePlan.shift] at hnext
  cases hn : code.get? id with
  | none =>
    rw [hn] at hnext hnext'
    cases hnext
    cases hnext'
    exact h
  | some n =>
    have hrelative :
        plan'.relative (NodeId.past place id) (n.renumber place) = plan.relative id n := by
      rw [relative, relative, h.number]
      rfl
    simp only [hn, Option.map_some, hrelative, h.layout] at hnext hnext'
    cases hvalue : (plan.relative id n).add? base with
    | none =>
      rw [hvalue] at hnext
      cases hnext
    | some value =>
      rw [hvalue] at hnext hnext'
      cases hnext
      cases hnext'
      exact ⟨rfl, (h.write id value).number⟩

/-- **The entries of a variable.**  Entries are shifted one after the other at their new places as
they were at their old ones. -/
theorem Renumbers.foldlM_shift {reporting : Bool} {ids : List NodeId} (hplace : place ≤ code.size)
    (h : plan.Renumbers place plan')
    (hnext : ids.foldlM (StoragePlan.shift code name base reporting) plan = .ok next)
    (hnext' : (ids.map (NodeId.past place)).foldlM
      (StoragePlan.shift (code.insertNode place marker) name base reporting) plan' = .ok next') :
    next.Renumbers place next' := by
  rw [List.foldlM_map] at hnext'
  exact related_of_foldlM (R := fun _ plan plan' => plan.Renumbers place plan')
    (fun h hnext hnext' => h.shift hplace hnext hnext') h hnext hnext'

/-- **The link of a variable.**  The linked node is set at its new place, or passed over in both. -/
theorem Renumbers.writeLinked (hplace : place ≤ code.size) (h : plan.Renumbers place plan')
    (value : Offset) (linked : Option NodeId) :
    (plan.writeLinked code value linked).Renumbers place
      (plan'.writeLinked (code.insertNode place marker) value
        (linked.map (NodeId.past place))) := by
  cases linked with
  | none => exact h
  | some id =>
    rw [Option.map_some, StoragePlan.writeLinked, StoragePlan.writeLinked,
      Code.contains_insertNode hplace]
    split
    · exact h.write id value
    · exact h

/-- **One variable.**  Visiting a variable keeps it. -/
theorem Renumbers.visit {tables : EntryTables} {slot : Slot} (hplace : place ≤ code.size)
    (h : plan.Renumbers place plan')
    (hnext : StoragePlan.visit code tables plan (name, slot) = .ok next)
    (hnext' : StoragePlan.visit (code.insertNode place marker) (tables.renumber place) plan'
      (name, slot.renumber place) = .ok next') :
    next.Renumbers place next' := by
  cases hbase : plan.layout.base? name with
  | none =>
    rw [visit_of_unplaced _ _ _ hbase] at hnext
    rw [visit_of_unplaced _ _ _ (h.layout ▸ hbase)] at hnext'
    cases hnext
    cases hnext'
    exact h
  | some base =>
    rw [visit_of_base? _ _ _ hbase] at hnext
    rw [visit_of_base? _ _ _ (h.layout ▸ hbase), Slot.listed_renumber,
      Slot.linked_renumber] at hnext'
    exact (h.writeLinked hplace base slot.linked).foldlM_shift hplace hnext hnext'

end StoragePlan

/-- **Storage is planned past an inserted node.**  A plan for the code with a node inserted has the
variables where they were, and for every old node at its new place the number that it had. -/
theorem renumbers_planStorage {declarations : Declarations} {tables : EntryTables} {code : Code}
    {place : Nat} {marker : Node} {base : Offset} {plan plan' : StoragePlan}
    (hplace : place ≤ code.size) (hplan : planStorage declarations tables code base = .ok plan)
    (hplan' : planStorage (declarations.renumber place) (tables.renumber place)
      (code.insertNode place marker) base = .ok plan') :
    plan.Renumbers place plan' := by
  rw [planStorage] at hplan hplan'
  rw [Declarations.layout_renumber] at hplan'
  split at hplan
  · cases hplan
  · rename_i layout hlayout
    simp only [hlayout] at hplan'
    have hentries : (declarations.renumber place).entries =
        declarations.entries.map fun e => (e.1, e.2.renumber place) := rfl
    rw [hentries, List.foldlM_map] at hplan'
    exact related_of_foldlM (R := fun _ plan plan' => plan.Renumbers place plan')
      (fun h hnext hnext' => h.visit hplace hnext hnext') ⟨rfl, fun _ => rfl⟩ hplan hplan'

end StackLinker
