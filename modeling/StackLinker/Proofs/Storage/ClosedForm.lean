/-
# Storage plans in closed form

What a storage plan has for a node can be read off the declarations and the entry tables: list what
each variable does to the node, in the order of declaration; the number is the base of the last
variable that resets the node, or what the node holds if there is none, and the bases of the later
shifts.  The plan can be made exactly if each partial result, in exact integers, is an offset.
-/
import StackLinker.Proofs.Storage.Positions
import StackLinker.Proofs.Storage.Slots
import Mathlib.Data.List.Perm.Basic

namespace StackLinker

variable {declarations : Declarations} {tables : EntryTables} {code : Code} {base : Offset}
  {layout : Layout} {plan : StoragePlan}

/-! ## Nodes without events -/

/-- Nothing happens to a node exactly if it does not depend on the place of the variable. -/
theorem Slot.eventsOn_eq_nil_iff {name : String} {slot : Slot} {id : NodeId} :
    slot.eventsOn tables name base id = [] ↔ id ∉ slot.dependents tables name := by
  rw [eventsOn, dependents_eq, List.append_eq_nil_iff, List.replicate_eq_nil_iff,
    List.count_eq_zero, List.mem_append, not_or, Option.mem_toList]
  refine and_congr_left fun _ => ?_
  by_cases hlinked : slot.linked = some id <;> simp [hlinked]

/-- If all of some variables have places, nothing happens to a node exactly if it depends on none of
them. -/
theorem Layout.eventsOn_eq_nil_iff {declared : List (String × Slot)} {id : NodeId}
    (hplaced : ∀ e ∈ declared, ∃ start, layout.base? e.1 = some start) :
    layout.eventsOn tables declared id = [] ↔ ∀ e ∈ declared, id ∉ e.2.dependents tables e.1 := by
  rw [eventsOn, List.flatMap_eq_nil_iff]
  refine forall₂_congr fun e he => ?_
  obtain ⟨start, hstart⟩ := hplaced e he
  rw [eventsOf, hstart, Option.map_some, Option.getD_some, Slot.eventsOn_eq_nil_iff]

/-- A layout has a base for each declared variable and reports the variable there. -/
theorem Declarations.exists_base?_of_layout (hlayout : declarations.layout base = .ok layout)
    {e : String × Slot} (he : e ∈ declarations.entries) :
    ∃ start, layout.base? e.1 = some start ∧ layout.position? e.1 = some start := by
  obtain ⟨place, hplace⟩ := List.getElem?_of_mem he
  obtain ⟨start, hstart, hreported, -⟩ :=
    (backToBack_of_layout hlayout).placed place e.1 e.2 hplace
  exact ⟨start, hstart, hreported⟩

/-! ## The whole plan -/

/-- Where there is a layout, planning visits the declared variables. -/
theorem planStorage_of_layout (hlayout : declarations.layout base = .ok layout) :
    planStorage declarations tables code base =
      declarations.entries.foldlM (StoragePlan.visit code tables) ⟨layout, ∅⟩ := by
  simp only [planStorage, hlayout]

/-- Planning carries out all that the declared variables do, from what the code holds on. -/
theorem carriesOut_planStorage (hlayout : declarations.layout base = .ok layout) :
    StoragePlan.CarriesOut code declarations.keys (layout.eventsOn tables declarations.entries)
      ⟨layout, ∅⟩ (planStorage declarations tables code base) := by
  rw [planStorage_of_layout hlayout]
  exact StoragePlan.carriesOut_foldlM_visit (fun e he => List.mem_map_of_mem he) fun _ => rfl

/-- **Which fault.**  From a base from which there is a layout, the fault names the first variable
that does to some node what is not admitted. -/
theorem planStorage_eq_error_iff (hlayout : declarations.layout base = .ok layout) {fault : Fault} :
    planStorage declarations tables code base = .error fault ↔
      ∃ place name slot, declarations.entries[place]? = some (name, slot) ∧
        fault = .memoryOverflow name ∧
          StoragePlan.Admits code
            (layout.eventsOn tables (declarations.entries.take place)) ⟨layout, ∅⟩ ∧
          ¬ StoragePlan.Admits code (layout.eventsOn tables (declarations.entries.take (place + 1)))
            ⟨layout, ∅⟩ := by
  rw [planStorage_of_layout hlayout]
  exact StoragePlan.foldlM_visit_eq_error_iff fun _ => rfl

/-! ## Planned nodes -/

/-- A plan has a number for a place exactly if it lies in the code and something happens to it. -/
theorem contains_writes_iff_eventsOn (hlayout : declarations.layout base = .ok layout)
    (h : planStorage declarations tables code base = .ok plan) (id : NodeId) :
    plan.writes.contains id = true ↔
      code.contains id = true ∧ layout.eventsOn tables declarations.entries id ≠ [] := by
  have hplaced : ∀ e ∈ declarations.entries, ∃ start, layout.base? e.1 = some start := by
    intro e he
    obtain ⟨start, hstart, -⟩ := Declarations.exists_base?_of_layout hlayout he
    exact ⟨start, hstart⟩
  rw [contains_writes_iff h, Ne, Layout.eventsOn_eq_nil_iff hplaced]
  simp only [Prod.forall, OrderedMap.mem_entries_iff, not_forall, not_not, exists_prop]

/-- The planned nodes are those of the code to which something happens. -/
theorem perm_keys_writes (hlayout : declarations.layout base = .ok layout)
    (h : planStorage declarations tables code base = .ok plan) :
    plan.writes.keys.Perm ((List.range code.size).filter fun id =>
      layout.eventsOn tables declarations.entries id ≠ []) := by
  have hnodup : plan.writes.keys.Nodup := plan.writes.nodup_keys
  rw [List.perm_ext_iff_of_nodup hnodup (List.nodup_range.filter _)]
  intro id
  rw [← OrderedMap.contains_iff_mem_keys, contains_writes_iff_eventsOn hlayout h, List.mem_filter,
    List.mem_range, decide_eq_true_iff, Code.contains, decide_eq_true_iff]

/-! ## Numbers and positions -/

/-- The number that visiting variables has left for a node comes to the total of what they do to
it. -/
theorem toInt_of_foldlM_visit {declared : List (String × Slot)}
    (h : declared.foldlM (StoragePlan.visit code tables) ⟨layout, ∅⟩ = .ok plan) {id : NodeId}
    {n : Node} (hn : code.get? id = some n) {value : Offset}
    (hvalue : plan.writes.get? id = some value) :
    value.toInt =
      StorageEvent.total n.relativeOffset.toInt (layout.eventsOn tables declared id) := by
  have hadvances := (StoragePlan.carriesOut_foldlM_visit (fun e he => List.mem_map_of_mem he)
    fun _ => rfl).advances_of_eq_ok h
  have hnumber := hadvances.relative_eq id n hn
  rw [StoragePlan.relative, hvalue, Option.getD_some, StorageEvent.foldl_next] at hnumber
  exact hnumber

/-- What is reported for a declared variable had been reported when it had been visited: its base,
or the number of its last entry. -/
theorem exists_reports_of_planStorage (hlayout : declarations.layout base = .ok layout)
    (h : planStorage declarations tables code base = .ok plan) {place : Nat} {name : String}
    {slot : Slot} (hplace : declarations.entries[place]? = some (name, slot)) :
    ∃ middle, (declarations.entries.take (place + 1)).foldlM (StoragePlan.visit code tables)
        ⟨layout, ∅⟩ = .ok middle ∧
      (slot.lastEntry? code tables name = none → plan.layout.position? name = layout.base? name) ∧
      ∀ id, slot.lastEntry? code tables name = some id → ∃ value,
        middle.writes.get? id = some value ∧ plan.layout.position? name = some value := by
  obtain ⟨start, hstart, hreported⟩ :=
    Declarations.exists_base?_of_layout hlayout (List.mem_of_getElem? hplace)
  have hentries : declarations.entries =
      declarations.entries.take place ++ (name, slot) :: declarations.entries.drop (place + 1) := by
    rw [← List.singleton_append, ← Option.toList_some, ← hplace,
      ← List.drop_eq_getElem?_toList_append, List.take_append_drop]
  have hnames := declarations.nodup_keys
  rw [planStorage_of_layout hlayout, hentries] at h
  rw [hentries] at hnames
  rw [List.take_add_one, hplace, Option.toList_some]
  obtain ⟨middle, hmiddle, hkept, hnone, hsome⟩ :=
    StoragePlan.exists_reports_of_foldlM_visit hnames hstart h
  refine ⟨middle, hmiddle, ?_, ?_⟩
  · intro hlast
    rw [hkept, hnone hlast, hstart]
    exact hreported
  · intro id hlast
    rw [hkept]
    exact hsome id hlast

/-! ## Closed form -/

/-- A storage plan that can be read off the declarations, the tables and the layout. -/
structure StoragePlan.ClosedForm (declarations : Declarations) (tables : EntryTables) (code : Code)
    (layout : Layout) (plan : StoragePlan) : Prop where
  /-- The variables are where the layout has them. -/
  base?_eq : ∀ name, plan.layout.base? name = layout.base? name
  stop_eq : plan.layout.stop = layout.stop
  /-- A place outside the code has no number. -/
  outside : ∀ id, code.get? id = none → plan.writes.get? id = none
  /-- A node of the code has no number exactly if nothing happens to it. -/
  get?_eq_none_iff : ∀ id n, code.get? id = some n →
    (plan.writes.get? id = none ↔ layout.eventsOn tables declarations.entries id = [])
  /-- The number of a node is the base of its last reset, or what it holds, and the later shifts. -/
  toInt_eq : ∀ id n value, code.get? id = some n → plan.writes.get? id = some value →
    value.toInt = StorageEvent.total n.relativeOffset.toInt
      (layout.eventsOn tables declarations.entries id)
  /-- There are as many numbers as nodes to which something happens. -/
  size_eq : plan.writes.size = ((List.range code.size).filter fun id =>
    layout.eventsOn tables declarations.entries id ≠ []).length
  /-- A variable without a last entry is reported at its base. -/
  position_of_none : ∀ name slot, declarations.get? name = some slot →
    slot.lastEntry? code tables name = none → plan.layout.position? name = layout.base? name
  /-- A string is reported at what is planned for its last entry when it has been visited: what the
  variables up to this one do to the entry. -/
  position_of_some : ∀ place name slot id n, declarations.entries[place]? = some (name, slot) →
    slot.lastEntry? code tables name = some id → code.get? id = some n →
    ∃ middle position,
      (declarations.entries.take (place + 1)).foldlM (visit code tables) ⟨layout, ∅⟩ = .ok middle ∧
      middle.writes.get? id = some position ∧ plan.layout.position? name = some position ∧
      position.toInt = StorageEvent.total n.relativeOffset.toInt
        (layout.eventsOn tables (declarations.entries.take (place + 1)) id)

/-- A storage plan has its closed form. -/
theorem closedForm_of_planStorage (hlayout : declarations.layout base = .ok layout)
    (h : planStorage declarations tables code base = .ok plan) :
    plan.ClosedForm declarations tables code layout := by
  have hadvances := (carriesOut_planStorage hlayout).advances_of_eq_ok h
  have hvisits := (planStorage_of_layout hlayout).symm.trans h
  have hnone : ∀ id, plan.writes.get? id = none ↔
      ¬ (code.contains id = true ∧ layout.eventsOn tables declarations.entries id ≠ []) := by
    intro id
    rw [← contains_writes_iff_eventsOn hlayout h, OrderedMap.contains,
      Option.not_isSome_iff_eq_none]
  refine ⟨hadvances.base?_eq, hadvances.stop_eq, ?_, ?_, ?_, ?_, ?_, ?_⟩
  · intro id hid
    rw [hnone, Code.contains_eq_false_iff_get?.mpr hid]
    simp
  · intro id n hn
    rw [hnone, Code.contains_iff_get?, hn]
    simp
  · intro id n value hn hvalue
    exact toInt_of_foldlM_visit hvisits hn hvalue
  · have hlength := (perm_keys_writes hlayout h).length_eq
    rwa [OrderedMap.keys, List.length_map] at hlength
  · intro name slot hslot hlast
    obtain ⟨place, hplace⟩ := List.getElem?_of_mem (OrderedMap.mem_entries_iff.mpr hslot)
    obtain ⟨middle, -, hbase, -⟩ := exists_reports_of_planStorage hlayout h hplace
    exact hbase hlast
  · intro place name slot id n hplace hlast hn
    obtain ⟨middle, hmiddle, -, hsome⟩ := exists_reports_of_planStorage hlayout h hplace
    obtain ⟨position, hposition, hreported⟩ := hsome id hlast
    exact ⟨middle, position, hmiddle, hposition, hreported,
      toInt_of_foldlM_visit hmiddle hn hposition⟩

/-- **Closed form.**  From a base from which there is a layout, a storage plan can be made exactly
if no partial result at any node of the code leaves the range of offsets, and then it is what the
events on each node come to. -/
theorem planStorage_closed_form (hlayout : declarations.layout base = .ok layout) :
    ((∃ plan, planStorage declarations tables code base = .ok plan) ↔
      ∀ id n, code.get? id = some n → ∀ number ∈ StorageEvent.numbers n.relativeOffset.toInt
        (layout.eventsOn tables declarations.entries id), Offset.Fits number) ∧
    ∀ plan, planStorage declarations tables code base = .ok plan →
      plan.ClosedForm declarations tables code layout :=
  ⟨(carriesOut_planStorage hlayout).exists_ok_iff, fun _ h => closedForm_of_planStorage hlayout h⟩

/-- Declarations of an array, a scalar and a string that all depend on one node. -/
def sharedDeclarations : Declarations :=
  ((OrderedMap.insert ∅ "a" { kind := .array, size := 4 }).insert "x"
    { kind := .scalar, size := 1, link := some 0 }).insert "s" { kind := .string, size := 2 }

/-- The array lists the node twice; the string lists it last but for a node outside the code. -/
def sharedTables : EntryTables where
  arrays := EntryTable.register (EntryTable.register ∅ "a" 0) "a" 0
  strings := EntryTable.register (EntryTable.register (EntryTable.register ∅ "s" 1) "s" 0) "s" 9

/-- The node, one without payload, and one on which nothing depends. -/
def sharedCode : Code :=
  ⟨[{ op := .push, payload := some (.pending 3), width := 1 }, { op := .push, width := 1 },
    { op := .stop }]⟩

/-- The scalar undoes both shifts of the array, and the string shifts from its base and reports the
sum. -/
theorem shared_closed_form : ∃ layout plan, sharedDeclarations.layout 10 = .ok layout ∧
    planStorage sharedDeclarations sharedTables sharedCode 10 = .ok plan ∧
    layout.eventsOn sharedTables sharedDeclarations.entries 0 =
      [.shift 10, .shift 10, .reset 14, .shift 15] ∧
    plan.writes.get? 2 = none ∧ plan.writes.size = 2 ∧
    (∀ value, plan.writes.get? 0 = some value → value.toInt = 14 + 15) ∧
    ∃ position, plan.layout.position? "s" = some position ∧ position.toInt = 14 + 15 := by
  obtain ⟨layout, hlayout⟩ : ∃ layout, sharedDeclarations.layout 10 = .ok layout := ⟨_, rfl⟩
  obtain ⟨plan, hplan⟩ :
      ∃ plan, planStorage sharedDeclarations sharedTables sharedCode 10 = .ok plan := ⟨_, rfl⟩
  have hevents : (sharedDeclarations.layout 10).map
      (fun layout => [0, 1, 2].map (layout.eventsOn sharedTables sharedDeclarations.entries)) =
        .ok [[.shift 10, .shift 10, .reset 14, .shift 15], [.shift 15], []] := by decide
  rw [hlayout] at hevents
  have hlists := Except.ok.inj hevents
  simp only [List.map_cons, List.map_nil, List.cons.injEq] at hlists
  obtain ⟨hshared, hother, hnothing, -⟩ := hlists
  have hform := (planStorage_closed_form hlayout).2 plan hplan
  have htotal : StorageEvent.total 3 [.shift 10, .shift 10, .reset 14, .shift 15] =
      14 + 15 := by decide
  refine ⟨layout, plan, hlayout, hplan, hshared, ?_, ?_, ?_, ?_⟩
  · exact (hform.get?_eq_none_iff 2 _ rfl).mpr hnothing
  · rw [hform.size_eq]
    show ([0, 1, 2].filter _).length = 2
    simp [hshared, hother, hnothing]
  · intro value hvalue
    rw [hform.toInt_eq 0 _ value rfl hvalue, hshared]
    exact htotal
  · obtain ⟨-, position, -, -, hposition, htoInt⟩ :=
      hform.position_of_some 2 "s" _ 0 _ rfl rfl rfl
    refine ⟨position, hposition, ?_⟩
    rw [htoInt]
    exact (congrArg _ hshared).trans htotal

end StackLinker
