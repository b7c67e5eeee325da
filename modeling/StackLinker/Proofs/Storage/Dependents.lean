/-
# What depends on the place of a variable

A storage plan has a number for the nodes that depend on the place of some declared variable and lie
in the code, and for no others: a node that is planned once stays planned.
-/
import StackLinker.Proofs.Sequencing
import StackLinker.Proofs.Storage.Plan
import StackLinker.Proofs.Storage.Layout

namespace StackLinker

/-! ## Dependents -/

/-- The nodes that depend on the place of a variable: the entries of an array or of a string in the
table of that kind, and the node that any other variable links to. -/
def Slot.dependents (tables : EntryTables) (name : String) (slot : Slot) : List NodeId :=
  match slot.kind with
  | .array => tables.arrays.entriesOf name
  | .string => tables.strings.entriesOf name
  | .scalar | .other => slot.link.toList

/-- The dependents of a variable are the node that is linked to it and those that are listed for
it. -/
theorem Slot.dependents_eq (tables : EntryTables) (name : String) (slot : Slot) :
    slot.dependents tables name = slot.linked.toList ++ slot.listed tables name := by
  rw [dependents, linked, listed]
  cases slot.kind with
  | array | string => rfl
  | scalar | other => exact (List.append_nil _).symm

/-! ## Growing plans -/

namespace StoragePlan

/-- A plan has grown by nodes: the same variables are placed, and to the planned nodes those are
added that lie in the code. -/
structure Grows (code : Code) (ids : List NodeId) (plan plan' : StoragePlan) : Prop where
  /-- The variables stay. -/
  keys_eq : plan'.layout.placements.keys = plan.layout.placements.keys
  /-- A planned node was planned before or is new. -/
  contains_iff : ∀ id, plan'.writes.contains id = true ↔
    plan.writes.contains id = true ∨ id ∈ ids ∧ code.contains id = true

namespace Grows

variable {code : Code} {ids later : List NodeId} {plan middle plan' : StoragePlan}

/-- A plan has grown by no nodes, and by nodes outside the code. -/
theorem refl_of_forall (h : ∀ id ∈ ids, code.contains id = false) : Grows code ids plan plan := by
  refine ⟨rfl, ?_⟩
  intro id
  constructor
  · exact Or.inl
  · rintro (hplanned | ⟨hid, hcontains⟩)
    · exact hplanned
    · rw [h id hid] at hcontains
      cases hcontains

/-- Growth adds up. -/
theorem trans (h : Grows code ids plan middle) (h' : Grows code later middle plan') :
    Grows code (ids ++ later) plan plan' := by
  refine ⟨h'.keys_eq.trans h.keys_eq, ?_⟩
  intro id
  rw [h'.contains_iff, h.contains_iff, List.mem_append, or_and_right, or_assoc]

end Grows

variable {code : Code} {name : String} {plan plan' : StoragePlan}

/-- Planning a number for a node of the code makes the plan grow by it. -/
theorem grows_write (plan : StoragePlan) {id : NodeId} (hid : code.contains id = true)
    (value : Offset) : Grows code [id] plan (plan.write id value) := by
  refine ⟨rfl, ?_⟩
  intro place
  rw [write, OrderedMap.contains, OrderedMap.get?_insert, List.mem_singleton]
  by_cases h : place = id
  · simp [h, hid]
  · simp [h, OrderedMap.contains]

/-- Reporting a position keeps the variables. -/
theorem keys_report (layout : Layout) (name : String) (position : Offset) :
    (layout.report name position).placements.keys = layout.placements.keys := by
  rw [Layout.report]
  split
  · rename_i placement hplacement
    have hmem : name ∈ layout.placements.keys := by
      rw [← OrderedMap.contains_iff_mem_keys, OrderedMap.contains, hplacement]
      rfl
    rw [OrderedMap.keys_insert, if_pos hmem]
  · rfl

/-- **One entry.**  Shifting an entry makes the plan grow by it. -/
theorem grows_of_shift {base : Offset} {reporting : Bool} {id : NodeId}
    (h : plan.shift code name base reporting id = .ok plan') : Grows code [id] plan plan' := by
  rw [shift] at h
  split at h
  · rename_i hnone
    cases h
    apply Grows.refl_of_forall
    intro place hplace
    rw [List.mem_singleton.mp hplace]
    exact Code.contains_eq_false_iff_get?.mpr hnone
  · rename_i n hn
    split at h
    · cases h
    · rename_i value hvalue
      cases h
      have hwrite := grows_write plan ((code.contains_iff_get? id).mpr ⟨n, hn⟩) value
      refine ⟨?_, hwrite.contains_iff⟩
      cases reporting with
      | false => rfl
      | true => exact keys_report plan.layout name value

/-- **All entries of a variable.** -/
theorem grows_of_foldlM_shift {base : Offset} {reporting : Bool} {ids : List NodeId}
    (h : ids.foldlM (shift code name base reporting) plan = .ok plan') :
    Grows code ids plan plan' := by
  induction ids generalizing plan with
  | nil =>
    cases h
    exact Grows.refl_of_forall (by simp)
  | cons id rest ih =>
    rw [List.foldlM_cons] at h
    obtain ⟨middle, hmiddle, hrest⟩ := bind_eq_ok_iff.mp h
    exact (grows_of_shift hmiddle).trans (ih hrest)

/-- **The link of a variable.**  Writing a number to a linked node makes the plan grow by it. -/
theorem grows_writeLinked (plan : StoragePlan) (value : Offset) (linked : Option NodeId) :
    Grows code linked.toList plan (plan.writeLinked code value linked) := by
  cases linked with
  | none => exact Grows.refl_of_forall (by simp)
  | some id =>
    rw [writeLinked]
    by_cases hid : code.contains id = true
    · rw [if_pos hid]
      exact grows_write plan hid value
    · -- A link outside the code is passed over.
      rw [if_neg hid]
      exact Grows.refl_of_forall (by simpa using hid)

/-- **One variable.**  Visiting a variable that has a place makes the plan grow by its
dependents. -/
theorem grows_of_visit {tables : EntryTables} {slot : Slot}
    (hname : name ∈ plan.layout.placements.keys)
    (h : visit code tables plan (name, slot) = .ok plan') :
    Grows code (slot.dependents tables name) plan plan' := by
  obtain ⟨placement, hplacement⟩ :
      ∃ placement, plan.layout.placements.get? name = some placement := by
    rw [← Option.isSome_iff_exists]
    exact (OrderedMap.contains_iff_mem_keys _ _).mpr hname
  have hbase : plan.layout.base? name = some placement.base := by
    rw [Layout.base?, hplacement, Option.map_some]
  rw [visit_of_base? code tables slot hbase] at h
  rw [Slot.dependents_eq]
  exact (grows_writeLinked plan placement.base slot.linked).trans (grows_of_foldlM_shift h)

/-- **All variables.** -/
theorem grows_of_foldlM_visit {tables : EntryTables} {declared : List (String × Slot)}
    (hnames : ∀ e ∈ declared, e.1 ∈ plan.layout.placements.keys)
    (h : declared.foldlM (visit code tables) plan = .ok plan') :
    Grows code (declared.flatMap fun e => e.2.dependents tables e.1) plan plan' := by
  induction declared generalizing plan with
  | nil =>
    cases h
    exact Grows.refl_of_forall (by simp)
  | cons e rest ih =>
    rw [List.foldlM_cons] at h
    obtain ⟨middle, hmiddle, hrest⟩ := bind_eq_ok_iff.mp h
    have hgrows := grows_of_visit (hnames e List.mem_cons_self) hmiddle
    refine hgrows.trans (ih ?_ hrest)
    intro e' he'
    rw [hgrows.keys_eq]
    exact hnames e' (List.mem_cons_of_mem e he')

end StoragePlan

/-- **What a plan writes.**  A plan has a number for a node exactly if the node lies in the code and
depends on the place of a declared variable. -/
theorem contains_writes_iff {declarations : Declarations} {tables : EntryTables} {code : Code}
    {base : Offset} {plan : StoragePlan} (h : planStorage declarations tables code base = .ok plan)
    (id : NodeId) :
    plan.writes.contains id = true ↔
      code.contains id = true ∧ ∃ name slot, declarations.get? name = some slot ∧
        id ∈ slot.dependents tables name := by
  rw [planStorage] at h
  split at h
  · cases h
  · rename_i layout hlayout
    have hnames : ∀ e ∈ declarations.entries, e.1 ∈ layout.placements.keys := by
      intro e he
      rw [Declarations.keys_of_layout hlayout]
      exact List.mem_map_of_mem he
    have hgrows := @StoragePlan.grows_of_foldlM_visit code ⟨layout, ∅⟩ plan tables _ hnames h
    have hempty : (∅ : OrderedMap NodeId Offset).contains id = false := rfl
    rw [hgrows.contains_iff, hempty, List.mem_flatMap]
    constructor
    · rintro (hfalse | ⟨⟨⟨name, slot⟩, hentry, hid⟩, hcontains⟩)
      · cases hfalse
      · exact ⟨hcontains, name, slot, OrderedMap.mem_entries_iff.mp hentry, hid⟩
    · rintro ⟨hcontains, name, slot, hslot, hid⟩
      exact .inr ⟨⟨(name, slot), OrderedMap.mem_entries_iff.mpr hslot, hid⟩, hcontains⟩

end StackLinker
