/-
# The order of entries

What a storage plan comes to depends on how often each node is listed for a variable, and not on the
order in which it was registered: the events on a node are the same.  Only the reported position of
a string depends on which of its entries is the last.
-/
import StackLinker.Proofs.Storage.ClosedForm
import StackLinker.Proofs.Storage.Registration

namespace StackLinker

/-- Two tables have the same entries under each name, each as often, in any order. -/
structure EntryTables.SameEntries (tables tables' : EntryTables) : Prop where
  arrays : ∀ name, (tables.arrays.entriesOf name).Perm (tables'.arrays.entriesOf name)
  strings : ∀ name, (tables.strings.entriesOf name).Perm (tables'.strings.entriesOf name)

/-! ## Registrations in another order -/

namespace EntryTable

/-- The same registrations in another order leave the same nodes under each name. -/
theorem perm_entriesOf_of_perm {registered registered' : List (String × NodeId)}
    (h : registered.Perm registered') (name : String) :
    ((registerAll ∅ registered).entriesOf name).Perm
      ((registerAll ∅ registered').entriesOf name) := by
  rw [entriesOf_registerAll, entriesOf_registerAll]
  exact ((h.filter _).map _).append_left _

end EntryTable

variable {declarations : Declarations} {tables tables' : EntryTables} {code : Code} {base : Offset}
  {layout : Layout} {plan plan' : StoragePlan}

/-! ## Events -/

/-- The same nodes are listed for a variable, each as often. -/
theorem Slot.perm_listed (h : tables.SameEntries tables') (name : String) (slot : Slot) :
    (slot.listed tables name).Perm (slot.listed tables' name) := by
  unfold listed
  cases slot.kind with
  | array => exact h.arrays name
  | string => exact h.strings name
  | scalar | other => exact List.Perm.refl []

/-- The same happens to each node. -/
theorem Layout.eventsOn_eq_of_sameEntries (h : tables.SameEntries tables') :
    layout.eventsOn tables = layout.eventsOn tables' := by
  have hslot : ∀ (slot : Slot) name base id,
      slot.eventsOn tables name base id = slot.eventsOn tables' name base id := by
    intro slot name base id
    rw [Slot.eventsOn, Slot.eventsOn, (slot.perm_listed h name).count_eq]
  funext declared id
  simp only [eventsOn, eventsOf, hslot]

/-! ## Plans with the same events -/

namespace StoragePlan.ClosedForm

/-- Plans have the same numbers if the same happens to each node. -/
theorem get?_writes_eq (h : plan.ClosedForm declarations tables code layout)
    (h' : plan'.ClosedForm declarations tables' code layout)
    (hevents : layout.eventsOn tables = layout.eventsOn tables') (id : NodeId) :
    plan.writes.get? id = plan'.writes.get? id := by
  cases hn : code.get? id with
  | none => rw [h.outside id hn, h'.outside id hn]
  | some n =>
    have hnone := h.get?_eq_none_iff id n hn
    rw [hevents, ← h'.get?_eq_none_iff id n hn] at hnone
    cases hvalue : plan.writes.get? id with
    | none => rw [hnone.mp hvalue]
    | some value =>
      cases hvalue' : plan'.writes.get? id with
      | none =>
        rw [hnone.mpr hvalue'] at hvalue
        cases hvalue
      | some value' =>
        rw [Option.some.injEq, ← Int64.toInt_inj, h.toInt_eq id n value hn hvalue,
          h'.toInt_eq id n value' hn hvalue', hevents]

/-- Plans report the same position for a variable if the same happens to each node and the variable
has the same last entry in both, or none in both. -/
theorem position?_eq (h : plan.ClosedForm declarations tables code layout)
    (h' : plan'.ClosedForm declarations tables' code layout)
    (hevents : layout.eventsOn tables = layout.eventsOn tables') {name : String} {slot : Slot}
    (hslot : declarations.get? name = some slot)
    (hlast : slot.lastEntry? code tables name = slot.lastEntry? code tables' name) :
    plan.layout.position? name = plan'.layout.position? name := by
  cases hentry : slot.lastEntry? code tables name with
  | none =>
    rw [h.position_of_none name slot hslot hentry,
      h'.position_of_none name slot hslot (hlast ▸ hentry)]
  | some id =>
    obtain ⟨n, hn⟩ := (code.contains_iff_get? id).mp (Slot.contains_of_lastEntry? hentry)
    obtain ⟨place, hplace⟩ := List.getElem?_of_mem (OrderedMap.mem_entries_iff.mpr hslot)
    obtain ⟨-, position, -, -, hposition, htotal⟩ :=
      h.position_of_some place name slot id n hplace hentry hn
    obtain ⟨-, position', -, -, hposition', htotal'⟩ :=
      h'.position_of_some place name slot id n hplace (hlast ▸ hentry) hn
    rw [hposition, hposition', Option.some.injEq, ← Int64.toInt_inj, htotal, htotal', hevents]

end StoragePlan.ClosedForm

/-! ## Planning -/

/-- **Entry order.**  With the same entries in another order planning fails with the same fault, or
has the same bases, the same end and the same numbers; and it reports the same positions, but for
strings of which another entry is the last in the code. -/
theorem planStorage_of_sameEntries (h : tables.SameEntries tables') (declarations : Declarations)
    (code : Code) (base : Offset) :
    (∃ fault, planStorage declarations tables code base = .error fault ∧
      planStorage declarations tables' code base = .error fault) ∨
    ∃ plan plan', planStorage declarations tables code base = .ok plan ∧
      planStorage declarations tables' code base = .ok plan' ∧
      (∀ name, plan.layout.base? name = plan'.layout.base? name) ∧
      plan.layout.stop = plan'.layout.stop ∧
      (∀ id, plan.writes.get? id = plan'.writes.get? id) ∧
      ∀ name slot, declarations.get? name = some slot →
        slot.kind ≠ .string ∨ slot.lastEntry? code tables name = slot.lastEntry? code tables' name →
          plan.layout.position? name = plan'.layout.position? name := by
  cases hlayout : declarations.layout base with
  | error fault =>
    left
    exact ⟨fault, by simp only [planStorage, hlayout], by simp only [planStorage, hlayout]⟩
  | ok layout =>
    have hevents := @Layout.eventsOn_eq_of_sameEntries tables tables' layout h
    cases hplan : planStorage declarations tables code base with
    | error fault =>
      left
      rw [planStorage_eq_error_iff hlayout, hevents, ← planStorage_eq_error_iff hlayout] at hplan
      exact ⟨fault, rfl, hplan⟩
    | ok plan =>
      right
      have hadmits := (carriesOut_planStorage hlayout).exists_ok_iff.mp ⟨plan, hplan⟩
      rw [hevents] at hadmits
      obtain ⟨plan', hplan'⟩ := (carriesOut_planStorage hlayout).exists_ok_iff.mpr hadmits
      have hform := closedForm_of_planStorage hlayout hplan
      have hform' := closedForm_of_planStorage hlayout hplan'
      refine ⟨plan, plan', rfl, hplan', ?_, ?_, hform.get?_writes_eq hform' hevents, ?_⟩
      · intro name
        rw [hform.base?_eq, hform'.base?_eq]
      · rw [hform.stop_eq, hform'.stop_eq]
      · rintro name slot hslot hlast
        refine hform.position?_eq hform' hevents hslot ?_
        rcases hlast with hkind | hlast
        · rw [Slot.lastEntry?_of_ne_string hkind, Slot.lastEntry?_of_ne_string hkind]
        · exact hlast

/-- The shared tables with the entries of the string in another order. -/
def reorderedTables : EntryTables where
  arrays := sharedTables.arrays
  strings := EntryTable.register (EntryTable.register (EntryTable.register ∅ "s" 0) "s" 9) "s" 1

/-- The node gets the same number in either order, and the string is reported at its own last
entry. -/
theorem shared_reordered : sharedTables.SameEntries reorderedTables ∧
    ∃ plan plan', planStorage sharedDeclarations sharedTables sharedCode 10 = .ok plan ∧
      planStorage sharedDeclarations reorderedTables sharedCode 10 = .ok plan' ∧
      plan.writes.get? 0 = plan'.writes.get? 0 ∧
      plan.layout.position? "a" = plan'.layout.position? "a" ∧
      plan.layout.position? "s" = some 29 ∧ plan'.layout.position? "s" = some 15 := by
  have hsame : sharedTables.SameEntries reorderedTables := by
    have hperm : [("s", 1), ("s", 0), ("s", 9)].Perm [("s", 0), ("s", 9), ("s", 1)] := by decide
    exact ⟨fun name => List.Perm.refl _, EntryTable.perm_entriesOf_of_perm hperm⟩
  obtain ⟨plan, hplan, hposition⟩ :
      ∃ plan, planStorage sharedDeclarations sharedTables sharedCode 10 = .ok plan ∧
        plan.layout.position? "s" = some 29 := ⟨_, rfl, rfl⟩
  obtain ⟨plan', hplan', hposition'⟩ :
      ∃ plan, planStorage sharedDeclarations reorderedTables sharedCode 10 = .ok plan ∧
        plan.layout.position? "s" = some 15 := ⟨_, rfl, rfl⟩
  rcases planStorage_of_sameEntries hsame sharedDeclarations sharedCode 10 with
    ⟨fault, hfault, -⟩ | ⟨plan₁, plan₂, hplan₁, hplan₂, -, -, hwrites, hpositions⟩
  · rw [hplan] at hfault
    cases hfault
  · rw [hplan] at hplan₁
    rw [hplan'] at hplan₂
    cases hplan₁
    cases hplan₂
    have harray := hpositions "a" _ rfl (.inl (by decide))
    exact ⟨hsame, plan, plan', hplan, hplan', hwrites 0, harray, hposition, hposition'⟩

end StackLinker
