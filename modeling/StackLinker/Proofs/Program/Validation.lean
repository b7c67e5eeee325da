/-
# Valid programs

A program is valid if nothing is wrong with any of its nodes, variables and entries: every name that
is used is declared and every link lies in the code.
-/
import StackLinker.Program.Validation
import StackLinker.Proofs.Code.Payloads
import StackLinker.Proofs.OrderedMap

namespace StackLinker

/-! ## Registrations -/

/-- The pairs of a table are its names with the nodes under them. -/
theorem EntryTable.mem_pairs_iff {table : EntryTable} {name : String} {id : NodeId} :
    (name, id) ∈ table.pairs ↔ id ∈ table.entriesOf name := by
  rw [pairs, List.mem_flatMap, entriesOf]
  constructor
  · rintro ⟨⟨key, ids⟩, hentry, hpair⟩
    obtain ⟨place, hplace, heq⟩ := List.mem_map.mp hpair
    cases heq
    rw [OrderedMap.mem_entries_iff.mp hentry]
    exact hplace
  · intro hid
    cases hids : table.get? name with
    | none =>
      rw [hids] at hid
      cases hid
    | some ids =>
      rw [hids] at hid
      exact ⟨(name, ids), OrderedMap.mem_entries_iff.mpr hids, List.mem_map_of_mem hid⟩

namespace Program

variable {program : Program}

/-! ## Lists of faults -/

/-- Nothing is wrong with a node if its variable is declared and its links lie in the code. -/
theorem nodeFaults_eq_nil_iff {id : NodeId} {n : Node} :
    program.nodeFaults id n = [] ↔
      (∀ name, n.referenced? = some name → program.declarations.contains name = true) ∧
        ∀ link, n.target = some link ∨ n.carrier = some link →
          program.code.contains link = true := by
  rw [nodeFaults, List.append_eq_nil_iff, List.map_eq_nil_iff, List.map_eq_nil_iff,
    List.filter_eq_nil_iff, List.filter_eq_nil_iff]
  simp

/-- Nothing is wrong with a variable if its link lies in the code. -/
theorem slotFaults_eq_nil_iff {name : String} {slot : Slot} :
    program.slotFaults name slot = [] ↔
      ∀ id, slot.link = some id → program.code.contains id = true := by
  rw [slotFaults, List.map_eq_nil_iff, List.filter_eq_nil_iff]
  simp

/-- Nothing is wrong with an entry if its name is declared and its node lies in the code. -/
theorem entryFaults_eq_nil_iff {name : String} {id : NodeId} :
    program.entryFaults name id = [] ↔
      program.declarations.contains name = true ∧ program.code.contains id = true := by
  rw [entryFaults, List.append_eq_nil_iff]
  simp

/-- A program is valid exactly if nothing is wrong with it. -/
theorem validate_eq_ok_iff : program.validate = .ok () ↔ program.faults = [] := by
  rw [validate]
  cases program.faults <;> simp

/-! ## Links -/

/-- Every name that is used is declared, and every link lies in the code. -/
structure WellLinked (program : Program) : Prop where
  /-- The variables that nodes refer to are declared; an empty name is no reference. -/
  reference : ∀ {id n name}, program.code.get? id = some n → n.reference = some name → name ≠ "" →
    program.declarations.contains name = true
  /-- The targets of nodes lie in the code. -/
  target : ∀ {id n link}, program.code.get? id = some n → n.target = some link →
    program.code.contains link = true
  /-- The carriers that nodes name lie in the code. -/
  carrier : ∀ {id n link}, program.code.get? id = some n → n.carrier = some link →
    program.code.contains link = true
  /-- The nodes that variables link to lie in the code. -/
  link : ∀ {name slot id}, program.declarations.get? name = some slot → slot.link = some id →
    program.code.contains id = true
  /-- The array entries lie in the code, under the names of variables. -/
  array : ∀ {name id}, id ∈ program.tables.arrays.entriesOf name →
    program.declarations.contains name = true ∧ program.code.contains id = true
  /-- The string entries lie in the code, under the names of variables. -/
  string : ∀ {name id}, id ∈ program.tables.strings.entriesOf name →
    program.declarations.contains name = true ∧ program.code.contains id = true

/-- A program is valid exactly if it is well linked. -/
theorem validate_eq_ok_iff_wellLinked : program.validate = .ok () ↔ program.WellLinked := by
  rw [validate_eq_ok_iff, faults, List.append_eq_nil_iff, List.append_eq_nil_iff,
    List.flatMap_eq_nil_iff, List.flatMap_eq_nil_iff, List.flatMap_eq_nil_iff]
  constructor
  · rintro ⟨⟨hnodes, hslots⟩, hentries⟩
    have hnode : ∀ {id n}, program.code.get? id = some n → program.nodeFaults id n = [] :=
      fun hn => hnodes _ (Code.mem_enumerate_iff.mpr hn)
    have hentry : ∀ {name id}, (name, id) ∈ program.tables.pairs →
        program.declarations.contains name = true ∧ program.code.contains id = true :=
      fun hpair => entryFaults_eq_nil_iff.mp (hentries _ hpair)
    refine ⟨?_, ?_, ?_, ?_, ?_, ?_⟩
    · intro id n name hn hname hne
      apply (nodeFaults_eq_nil_iff.mp (hnode hn)).1
      exact Option.filter_eq_some_iff.mpr ⟨hname, by simpa using hne⟩
    · intro id n link hn hlink
      exact (nodeFaults_eq_nil_iff.mp (hnode hn)).2 link (.inl hlink)
    · intro id n link hn hlink
      exact (nodeFaults_eq_nil_iff.mp (hnode hn)).2 link (.inr hlink)
    · intro name slot id hslot
      exact slotFaults_eq_nil_iff.mp (hslots _ (OrderedMap.mem_entries_iff.mpr hslot)) id
    · intro name id hid
      exact hentry (List.mem_append_left _ (EntryTable.mem_pairs_iff.mpr hid))
    · intro name id hid
      exact hentry (List.mem_append_right _ (EntryTable.mem_pairs_iff.mpr hid))
  · intro h
    refine ⟨⟨?_, ?_⟩, ?_⟩
    · rintro ⟨id, n⟩ hmem
      have hn := Code.mem_enumerate_iff.mp hmem
      refine nodeFaults_eq_nil_iff.mpr ⟨?_, ?_⟩
      · intro name hname
        obtain ⟨hreference, hne⟩ := Option.filter_eq_some_iff.mp hname
        exact h.reference hn hreference (by simpa using hne)
      · rintro link (hlink | hlink)
        · exact h.target hn hlink
        · exact h.carrier hn hlink
    · rintro ⟨name, slot⟩ hmem
      refine slotFaults_eq_nil_iff.mpr ?_
      intro id hid
      exact h.link (OrderedMap.mem_entries_iff.mp hmem) hid
    · rintro ⟨name, id⟩ hmem
      refine entryFaults_eq_nil_iff.mpr ?_
      rcases List.mem_append.mp hmem with hpair | hpair
      · exact h.array (EntryTable.mem_pairs_iff.mp hpair)
      · exact h.string (EntryTable.mem_pairs_iff.mp hpair)

/-! ## Links and names apart -/

/-- Every link lies in the code, whatever names are declared. -/
structure Closed (program : Program) : Prop where
  /-- The targets of nodes lie in the code. -/
  target : ∀ {id n link}, program.code.get? id = some n → n.target = some link →
    program.code.contains link = true
  /-- The carriers that nodes name lie in the code. -/
  carrier : ∀ {id n link}, program.code.get? id = some n → n.carrier = some link →
    program.code.contains link = true
  /-- The nodes that variables link to lie in the code. -/
  link : ∀ {name slot id}, program.declarations.get? name = some slot → slot.link = some id →
    program.code.contains id = true
  /-- The entries of arrays lie in the code. -/
  array : ∀ {name id}, id ∈ program.tables.arrays.entriesOf name → program.code.contains id = true
  /-- The entries of strings lie in the code. -/
  string : ∀ {name id}, id ∈ program.tables.strings.entriesOf name → program.code.contains id = true

/-- Every name that is used is declared, wherever links lead. -/
structure Declares (program : Program) : Prop where
  /-- The variables that nodes refer to are declared. -/
  reference : ∀ {id n name}, program.code.get? id = some n → n.referenced? = some name →
    program.declarations.contains name = true
  /-- The names of array entries are declared. -/
  array : ∀ {name id}, id ∈ program.tables.arrays.entriesOf name →
    program.declarations.contains name = true
  /-- The names of string entries are declared. -/
  string : ∀ {name id}, id ∈ program.tables.strings.entriesOf name →
    program.declarations.contains name = true

/-- A program is well linked if all its links lie in the code and all its names are declared. -/
theorem wellLinked_iff : program.WellLinked ↔ program.Closed ∧ program.Declares := by
  constructor
  · intro h
    refine ⟨⟨h.target, h.carrier, h.link, fun hid => (h.array hid).2, fun hid => (h.string hid).2⟩,
      ⟨?_, fun hid => (h.array hid).1, fun hid => (h.string hid).1⟩⟩
    intro id n name hn hname
    obtain ⟨hreference, hne⟩ := Option.filter_eq_some_iff.mp hname
    exact h.reference hn hreference (by simpa using hne)
  · rintro ⟨hclosed, hdeclares⟩
    refine ⟨?_, hclosed.target, hclosed.carrier, hclosed.link,
      fun hid => ⟨hdeclares.array hid, hclosed.array hid⟩,
      fun hid => ⟨hdeclares.string hid, hclosed.string hid⟩⟩
    intro id n name hn hreference hne
    exact hdeclares.reference hn
      (Option.filter_eq_some_iff.mpr ⟨hreference, by simpa using hne⟩)

/-- What is reported of an invalid program is one of its faults. -/
theorem mem_faults_of_validate {fault : Fault} (h : program.validate = .error fault) :
    fault ∈ program.faults := by
  rw [validate] at h
  cases hfaults : program.faults with
  | nil => rw [hfaults] at h; cases h
  | cons first rest =>
    rw [hfaults] at h
    cases h
    exact List.mem_cons_self

/-- In a closed program nothing can be wrong but a name that is not declared. -/
theorem Closed.undefined_of_mem_faults (h : program.Closed) {fault : Fault}
    (hfault : fault ∈ program.faults) :
    ∃ name id, fault = .undefinedVariable name id ∧ program.declarations.contains name = false := by
  rw [faults, List.mem_append, List.mem_append, List.mem_flatMap, List.mem_flatMap,
    List.mem_flatMap] at hfault
  rcases hfault with (⟨⟨id, n⟩, hnode, hfault⟩ | ⟨⟨name, slot⟩, hslot, hfault⟩) |
    ⟨⟨name, id⟩, hpair, hfault⟩
  · have hn := Code.mem_enumerate_iff.mp hnode
    rw [nodeFaults, List.mem_append, List.mem_map, List.mem_map] at hfault
    rcases hfault with ⟨name, hname, rfl⟩ | ⟨link, hlink, rfl⟩
    · refine ⟨name, id, rfl, ?_⟩
      simpa using (List.mem_filter.mp hname).2
    · -- The links of the node lie in the code.
      rw [List.mem_filter, List.mem_append, Option.mem_toList, Option.mem_toList] at hlink
      have hcontains : program.code.contains link = true := by
        rcases hlink.1 with htarget | hcarrier
        · exact h.target hn htarget
        · exact h.carrier hn hcarrier
      simp [hcontains] at hlink
  · rw [slotFaults, List.mem_map] at hfault
    obtain ⟨link, hlink, rfl⟩ := hfault
    rw [List.mem_filter, Option.mem_toList] at hlink
    have hcontains := h.link (OrderedMap.mem_entries_iff.mp hslot) hlink.1
    simp [hcontains] at hlink
  · have hcontains : program.code.contains id = true := by
      rcases List.mem_append.mp hpair with hpair | hpair
      · exact h.array (EntryTable.mem_pairs_iff.mp hpair)
      · exact h.string (EntryTable.mem_pairs_iff.mp hpair)
    rw [entryFaults, hcontains, if_pos rfl, List.append_nil] at hfault
    split at hfault
    · cases hfault
    · rename_i hname
      exact ⟨name, id, List.mem_singleton.mp hfault, by simpa using hname⟩

/-- A closed program is valid exactly if it declares its names. -/
theorem Closed.validate_eq_ok_iff_declares (h : program.Closed) :
    program.validate = .ok () ↔ program.Declares := by
  rw [validate_eq_ok_iff_wellLinked, wellLinked_iff]
  exact and_iff_right h

/-- The links of a valid program lie in its code. -/
theorem contains_of_validate (h : program.validate = .ok ()) {id link : NodeId} {n : Node}
    (hn : program.code.get? id = some n) (hlink : n.target = some link ∨ n.carrier = some link) :
    program.code.contains link = true := by
  have hlinked := validate_eq_ok_iff_wellLinked.mp h
  rcases hlink with htarget | hcarrier
  · exact hlinked.target hn htarget
  · exact hlinked.carrier hn hcarrier

end Program

end StackLinker
