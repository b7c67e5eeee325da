/-
# Storage from two bases

If no node is shifted twice, nor shifted and reset, every planned number is the sum of the base of
one variable and of what the code holds.  So two plans for one program, from bases that differ by a
distance, differ by that distance in every placement, in every planned number and in their end.
-/
import StackLinker.Proofs.Pairing
import StackLinker.Proofs.Storage.Dependents
import StackLinker.Proofs.Storage.Sweep

namespace StackLinker

/-! ## Nodes that are listed once -/

/-- The nodes of the code that are listed for any of some variables, one for each registration. -/
def listedIn (code : Code) (tables : EntryTables) (declared : List (String × Slot)) : List NodeId :=
  (declared.flatMap fun e => e.2.listed tables e.1).filter code.contains

/-- Every node of the code is listed once at most, and no scalar or variable of no special kind
links to a node that is listed. -/
structure ListedOnce (declarations : Declarations) (tables : EntryTables) (code : Code) : Prop where
  nodup : (listedIn code tables declarations.entries).Nodup
  unlinked : ∀ e ∈ declarations.entries, e.2.kind = .scalar ∨ e.2.kind = .other →
    ∀ id ∈ e.2.link, id ∉ listedIn code tables declarations.entries

/-- What is listed for a first variable comes before what is listed for the others. -/
theorem listedIn_cons (code : Code) (tables : EntryTables) (name : String) (slot : Slot)
    (rest : List (String × Slot)) :
    listedIn code tables ((name, slot) :: rest) =
      (slot.listed tables name).filter code.contains ++ listedIn code tables rest := by
  rw [listedIn, List.flatMap_cons, List.filter_append]
  rfl

/-- No node is linked to a variable for which nodes are listed. -/
theorem Slot.linked_of_mem_listed {tables : EntryTables} {name : String} {slot : Slot}
    {id : NodeId} :
    id ∈ slot.listed tables name → slot.linked = none := by
  rw [listed, linked]
  cases slot.kind with
  | array | string => exact fun _ => rfl
  | scalar | other => exact fun hid => absurd hid List.not_mem_nil

/-- What depends on the place of a variable is listed for it, or is the node that it links to. -/
theorem Slot.mem_dependents_iff {tables : EntryTables} {name : String} {slot : Slot} {id : NodeId} :
    id ∈ slot.dependents tables name ↔ id ∈ slot.listed tables name ∨
      (slot.kind = .scalar ∨ slot.kind = .other) ∧ slot.link = some id := by
  rw [dependents, listed]
  cases slot.kind <;> simp

/-! ## Displaced offsets and layouts -/

/-- An offset lies a distance behind another. -/
def Offset.Displaced (distance : Int) (x x' : Offset) : Prop := x'.toInt = x.toInt + distance

/-- Checked sums with one number are displaced as the offsets are. -/
theorem Offset.Displaced.of_add? {distance : Int} {x x' y z z' : Offset}
    (h : x.Displaced distance x') (hz : y.add? x = some z) (hz' : y.add? x' = some z') :
    z.Displaced distance z' := by
  rw [Offset.add?_eq_some_iff] at hz hz'
  rw [Offset.Displaced] at h ⊢
  omega

/-- Offsets behind one size of storage are displaced as the offsets before it are. -/
theorem Offset.Displaced.of_advance? {distance : Int} {x x' y y' : Offset} {size : UInt64}
    (h : x.Displaced distance x') (hy : x.advance? size = some y)
    (hy' : x'.advance? size = some y') :
    y.Displaced distance y' := by
  obtain ⟨length, hlength, hy⟩ := Option.bind_eq_some_iff.mp hy
  obtain ⟨length', hlength', hy'⟩ := Option.bind_eq_some_iff.mp hy'
  rw [Offset.ofInt?_eq_some_iff] at hlength hlength'
  rw [Offset.add?_eq_some_iff] at hy hy'
  rw [Offset.Displaced] at h ⊢
  omega

/-- The base and the reported position of a variable lie a distance behind others. -/
structure Placement.Displaced (distance : Int) (placement placement' : Placement) : Prop where
  base : placement.base.Displaced distance placement'.base
  position : placement.position.Displaced distance placement'.position

/-- Two layouts of the same variables, a distance apart. -/
structure Layout.Displaced (distance : Int) (layout layout' : Layout) : Prop where
  placement : ∀ name, Option.Rel (Placement.Displaced distance) (layout.placements.get? name)
    (layout'.placements.get? name)
  stop : layout.stop.Displaced distance layout'.stop

namespace Layout

variable {distance : Int} {layout layout' : Layout}

/-- Placing one more variable keeps the distance. -/
theorem Displaced.place {name : String} {slot : Slot} {next next' : Layout}
    (h : layout.Displaced distance layout') (hnext : layout.place name slot = .ok next)
    (hnext' : layout'.place name slot = .ok next') : next.Displaced distance next' := by
  rw [Layout.place] at hnext hnext'
  split at hnext
  · rename_i stop hstop
    split at hnext'
    · rename_i stop' hstop'
      cases hnext
      cases hnext'
      refine ⟨?_, h.stop.of_advance? hstop hstop'⟩
      intro name'
      rw [OrderedMap.get?_insert, OrderedMap.get?_insert]
      split
      · exact .some ⟨h.stop, h.stop⟩
      · exact h.placement name'
    · cases hnext'
  · cases hnext

/-- Reporting offsets for a variable that lie the distance apart keeps it. -/
theorem Displaced.report {name : String} {position position' : Offset}
    (h : layout.Displaced distance layout') (hposition : position.Displaced distance position') :
    (layout.report name position).Displaced distance (layout'.report name position') := by
  refine ⟨?_, ?_⟩
  · intro name'
    rw [get?_report, get?_report]
    split
    · exact rel_map (h.placement name) fun _ _ hplacement => ⟨hplacement.base, hposition⟩
    · exact h.placement name'
  · rw [stop_report, stop_report]
    exact h.stop

/-- A variable has a base in both layouts, and these lie the distance apart, or in neither. -/
theorem Displaced.base? (h : layout.Displaced distance layout') (name : String) :
    Option.Rel (Offset.Displaced distance) (layout.base? name) (layout'.base? name) :=
  rel_map (h.placement name) fun _ _ hplacement => hplacement.base

/-- A variable has a reported position in both layouts, and these lie the distance apart, or in
neither. -/
theorem Displaced.position? (h : layout.Displaced distance layout') (name : String) :
    Option.Rel (Offset.Displaced distance) (layout.position? name) (layout'.position? name) :=
  rel_map (h.placement name) fun _ _ hplacement => hplacement.position

end Layout

/-- Layouts of the same variables lie as far apart as the bases from which they are placed. -/
theorem Declarations.displaced_layout {declarations : Declarations} {distance : Int}
    {base base' : Offset} {layout layout' : Layout} (h : base.Displaced distance base')
    (hlayout : declarations.layout base = .ok layout)
    (hlayout' : declarations.layout base' = .ok layout') : layout.Displaced distance layout' := by
  refine related_of_foldlM (R := fun _ layout layout' => layout.Displaced distance layout') ?_ ?_
    hlayout hlayout'
  · intro e rest layout layout' next next' hdisplaced hnext hnext'
    exact hdisplaced.place hnext hnext'
  · exact ⟨fun _ => .none, h⟩

/-! ## Displaced plans -/

namespace StoragePlan

/-- Two plans for the same variables and nodes, a distance apart. -/
structure Displaced (distance : Int) (plan plan' : StoragePlan) : Prop where
  layout : plan.layout.Displaced distance plan'.layout
  number : ∀ id, Option.Rel (Offset.Displaced distance) (plan.writes.get? id) (plan'.writes.get? id)

variable {distance : Int} {plan plan' next next' : StoragePlan} {code : Code} {name : String}
  {base base' : Offset}

/-- Planning numbers for a node that lie the distance apart keeps it. -/
theorem Displaced.write {value value' : Offset} (h : plan.Displaced distance plan')
    (hvalue : value.Displaced distance value') (id : NodeId) :
    (plan.write id value).Displaced distance (plan'.write id value') := by
  refine ⟨h.layout, ?_⟩
  intro id'
  rw [StoragePlan.write, StoragePlan.write, OrderedMap.get?_insert, OrderedMap.get?_insert]
  split
  · exact .some hvalue
  · exact h.number id'

/-- **One entry.**  Shifting an entry for the first time reads what the code holds in both plans, so
its numbers differ as the bases do. -/
theorem Displaced.shift {reporting : Bool} {id : NodeId} (h : plan.Displaced distance plan')
    (hbase : base.Displaced distance base')
    (hfresh : code.contains id = true → plan.writes.contains id = false)
    (hnext : plan.shift code name base reporting id = .ok next)
    (hnext' : plan'.shift code name base' reporting id = .ok next') :
    next.Displaced distance next' := by
  rw [StoragePlan.shift] at hnext hnext'
  cases hn : code.get? id with
  | none =>
    simp only [hn] at hnext hnext'
    cases hnext
    cases hnext'
    exact h
  | some n =>
    have hnone : plan.writes.get? id = none := by
      rw [← Option.not_isSome_iff_eq_none, Bool.not_eq_true]
      exact hfresh ((code.contains_iff_get? id).mpr ⟨n, hn⟩)
    have hnone' : plan'.writes.get? id = none := by
      rw [← Option.not_isSome_iff_eq_none, ← isSome_eq_of_rel (h.number id), hnone]
      exact Bool.false_ne_true
    simp only [hn, relative, hnone, hnone', Option.getD_none] at hnext hnext'
    split at hnext
    · cases hnext
    · rename_i value hvalue
      split at hnext'
      · cases hnext'
      · rename_i value' hvalue'
        cases hnext
        cases hnext'
        have hdisplaced := hbase.of_add? hvalue hvalue'
        refine ⟨?_, (h.write hdisplaced id).number⟩
        cases reporting with
        | false => exact h.layout
        | true => exact h.layout.report hdisplaced

/-- **All entries of a variable.**  If the entries in the code are all different, and none of them
has been planned before, each is shifted for the first time. -/
theorem Displaced.foldlM_shift {reporting : Bool} {ids : List NodeId}
    (h : plan.Displaced distance plan') (hbase : base.Displaced distance base')
    (hnodup : (ids.filter code.contains).Nodup)
    (hfresh : ∀ id ∈ ids.filter code.contains, plan.writes.contains id = false)
    (hnext : ids.foldlM (StoragePlan.shift code name base reporting) plan = .ok next)
    (hnext' : ids.foldlM (StoragePlan.shift code name base' reporting) plan' = .ok next') :
    next.Displaced distance next' := by
  have hkept := related_of_foldlM (R := fun (ids : List NodeId) (plan plan' : StoragePlan) =>
    plan.Displaced distance plan' ∧ (ids.filter code.contains).Nodup ∧
      ∀ id ∈ ids.filter code.contains, plan.writes.contains id = false) ?_
    ⟨h, hnodup, hfresh⟩ hnext hnext'
  · exact hkept.1
  · rintro id rest plan plan' next next' ⟨h, hnodup, hfresh⟩ hnext hnext'
    have hsublist : (rest.filter code.contains).Sublist ((id :: rest).filter code.contains) :=
      (List.sublist_cons_self id rest).filter code.contains
    refine ⟨h.shift hbase ?_ hnext hnext', hnodup.sublist hsublist, ?_⟩
    · intro hid
      exact hfresh id (List.mem_filter.mpr ⟨List.mem_cons_self, hid⟩)
    · -- Only this entry has been planned, and it is none of those to come.
      intro later hlater
      rw [← Bool.not_eq_true, (grows_of_shift hnext).contains_iff, List.mem_singleton]
      rintro (hplanned | ⟨rfl, hid⟩)
      · rw [hfresh later (hsublist.subset hlater)] at hplanned
        cases hplanned
      · rw [List.filter_cons_of_pos hid, List.nodup_cons] at hnodup
        exact hnodup.1 hlater

/-- **The link of a variable.**  The linked node is set to the base in both plans, or passed over in
both. -/
theorem Displaced.writeLinked (h : plan.Displaced distance plan')
    (hbase : base.Displaced distance base') (linked : Option NodeId) :
    (plan.writeLinked code base linked).Displaced distance
      (plan'.writeLinked code base' linked) := by
  cases linked with
  | none => exact h
  | some id =>
    rw [StoragePlan.writeLinked, StoragePlan.writeLinked]
    split
    · exact h.write hbase id
    · exact h

/-- **One variable.**  Visiting a variable keeps the distance, if its entries in the code are all
different and none of them has been planned before. -/
theorem Displaced.visit {tables : EntryTables} {slot : Slot} (h : plan.Displaced distance plan')
    (hnodup : ((slot.listed tables name).filter code.contains).Nodup)
    (hfresh : ∀ id ∈ (slot.listed tables name).filter code.contains,
      plan.writes.contains id = false)
    (hnext : StoragePlan.visit code tables plan (name, slot) = .ok next)
    (hnext' : StoragePlan.visit code tables plan' (name, slot) = .ok next') :
    next.Displaced distance next' := by
  have hbases := h.layout.base? name
  generalize hbase : plan.layout.base? name = found at hbases
  generalize hbase' : plan'.layout.base? name = found' at hbases
  cases hbases with
  | none =>
    rw [visit_of_unplaced code tables slot hbase] at hnext
    rw [visit_of_unplaced code tables slot hbase'] at hnext'
    cases hnext
    cases hnext'
    exact h
  | some hdisplaced =>
    rw [visit_of_base? code tables slot hbase] at hnext
    rw [visit_of_base? code tables slot hbase'] at hnext'
    refine (h.writeLinked hdisplaced slot.linked).foldlM_shift hdisplaced hnodup ?_ hnext hnext'
    intro id hid
    rw [Slot.linked_of_mem_listed (List.mem_filter.mp hid).1]
    exact hfresh id hid

/-- What is listed for variables is still to be shifted for the first time: it is all different, no
link of these variables leads there, and none of it is planned. -/
structure Awaits (code : Code) (tables : EntryTables) (declared : List (String × Slot))
    (plan : StoragePlan) : Prop where
  /-- The variables have their places. -/
  placed : ∀ e ∈ declared, e.1 ∈ plan.layout.placements.keys
  nodup : (listedIn code tables declared).Nodup
  unlinked : ∀ e ∈ declared, e.2.kind = .scalar ∨ e.2.kind = .other → ∀ id ∈ e.2.link,
    id ∉ listedIn code tables declared
  fresh : ∀ id ∈ listedIn code tables declared, plan.writes.contains id = false

/-- After the first variable is visited, what is listed for the others is still to be shifted. -/
theorem Awaits.of_visit {tables : EntryTables} {slot : Slot} {rest : List (String × Slot)}
    (h : Awaits code tables ((name, slot) :: rest) plan)
    (hnext : StoragePlan.visit code tables plan (name, slot) = .ok next) :
    Awaits code tables rest next := by
  obtain ⟨hplaced, hnodup, hunlinked, hfresh⟩ := h
  rw [listedIn_cons] at hnodup hunlinked hfresh
  rw [List.nodup_append] at hnodup
  have hgrows := grows_of_visit (hplaced _ List.mem_cons_self) hnext
  refine ⟨?_, hnodup.2.1, ?_, ?_⟩
  · intro e he
    rw [hgrows.keys_eq]
    exact hplaced e (List.mem_cons_of_mem _ he)
  · intro e he hkind id hlink hmem
    exact hunlinked e (List.mem_cons_of_mem _ he) hkind id hlink (List.mem_append_right _ hmem)
  · -- What has been planned now is listed for this variable or linked to, so it is not to come.
    intro later hlater
    rw [← Bool.not_eq_true, hgrows.contains_iff, Slot.mem_dependents_iff]
    rintro (hplanned | ⟨hlisted | ⟨hkind, hlink⟩, hid⟩)
    · rw [hfresh later (List.mem_append_right _ hlater)] at hplanned
      cases hplanned
    · exact hnodup.2.2 later (List.mem_filter.mpr ⟨hlisted, hid⟩) later hlater rfl
    · exact hunlinked _ List.mem_cons_self hkind later hlink (List.mem_append_right _ hlater)

/-- **All variables.**  Visiting variables for which all is still to be shifted keeps the
distance. -/
theorem Displaced.foldlM_visit {tables : EntryTables} {declared : List (String × Slot)}
    (h : plan.Displaced distance plan') (hawaits : Awaits code tables declared plan)
    (hnext : declared.foldlM (StoragePlan.visit code tables) plan = .ok next)
    (hnext' : declared.foldlM (StoragePlan.visit code tables) plan' = .ok next') :
    next.Displaced distance next' := by
  have hkept := related_of_foldlM (R := fun declared (plan plan' : StoragePlan) =>
    plan.Displaced distance plan' ∧ Awaits code tables declared plan) ?_ ⟨h, hawaits⟩ hnext hnext'
  · exact hkept.1
  · rintro ⟨name, slot⟩ rest plan plan' next next' ⟨h, hawaits⟩ hnext hnext'
    have hnodup := hawaits.nodup
    have hfresh := hawaits.fresh
    rw [listedIn_cons] at hnodup hfresh
    refine ⟨h.visit (List.nodup_append.mp hnodup).1 ?_ hnext hnext', hawaits.of_visit hnext⟩
    intro id hid
    exact hfresh id (List.mem_append_left _ hid)

end StoragePlan

/-- **Storage moves as a whole.**  If every node of the code is listed once at most and no link
leads to a node that is listed, two plans lie as far apart as the bases from which they are made. -/
theorem ListedOnce.displaced_planStorage {declarations : Declarations} {tables : EntryTables}
    {code : Code} {distance : Int} {base base' : Offset} {plan plan' : StoragePlan}
    (hlisted : ListedOnce declarations tables code) (h : base.Displaced distance base')
    (hplan : planStorage declarations tables code base = .ok plan)
    (hplan' : planStorage declarations tables code base' = .ok plan') :
    plan.Displaced distance plan' := by
  rw [planStorage] at hplan hplan'
  split at hplan
  · cases hplan
  · rename_i layout hlayout
    split at hplan'
    · cases hplan'
    · rename_i layout' hlayout'
      have hstart : StoragePlan.Displaced distance ⟨layout, ∅⟩ ⟨layout', ∅⟩ :=
        ⟨Declarations.displaced_layout h hlayout hlayout', fun _ => .none⟩
      have hawaits : StoragePlan.Awaits code tables declarations.entries ⟨layout, ∅⟩ := by
        refine ⟨?_, hlisted.nodup, hlisted.unlinked, fun _ _ => rfl⟩
        intro e he
        rw [Declarations.keys_of_layout hlayout]
        exact List.mem_map_of_mem he
      exact hstart.foldlM_visit hawaits hplan hplan'

end StackLinker
