/-
# Labels and their places

Labels are collected in one walk over the instructions.  A label that has occurred before stops the
walk; otherwise each label is found, in the end, at the place of the one instruction that has it,
wherever it is used.
-/
import StackLinker.Description.Build
import StackLinker.Proofs.OrderedMap
import StackLinker.Proofs.Sequencing

namespace StackLinker

/-! ## Labels of a description -/

/-- The labels of the instructions, in order. -/
def Description.labels (description : Description) : List String :=
  description.instructions.filterMap InstructionEntry.label

/-- Tells that `id` is the one place at which an instruction has a label. -/
def Description.Locates (description : Description) (label : String) (id : NodeId) : Prop :=
  ∀ place, (∃ entry, description.instructions[place]? = some entry ∧ entry.label = some label) ↔
    place = id

/-- Those of some labels that occur among the labels before them or are known already, in order. -/
def repeatedLabels (known : List String) : List String → List String
  | [] => []
  | label :: rest =>
    if label ∈ known then label :: repeatedLabels known rest
    else repeatedLabels (known ++ [label]) rest

/-- No label is repeated exactly if all of them, with those that are known, are different. -/
theorem repeatedLabels_eq_nil_iff {known labels : List String} (hknown : known.Nodup) :
    repeatedLabels known labels = [] ↔ (known ++ labels).Nodup := by
  induction labels generalizing known with
  | nil => simpa [repeatedLabels] using hknown
  | cons label rest ih =>
    rw [repeatedLabels]
    split
    · rename_i hmem
      simp only [reduceCtorEq, false_iff]
      intro hnodup
      exact (List.nodup_append.mp hnodup).2.2 label hmem label List.mem_cons_self rfl
    · rename_i hmem
      have hnodup : (known ++ [label]).Nodup := by
        rw [List.nodup_append]
        refine ⟨hknown, by simp, ?_⟩
        intro a ha b hb hab
        exact hmem (List.mem_singleton.mp hb ▸ hab ▸ ha)
      rw [ih hnodup, List.append_assoc, List.singleton_append]

/-- The fault of a label that is not among those that are defined; a missing label has none. -/
def labelFaults (defined : List String) (label : Option String) : List Fault :=
  (label.toList.filter fun name => name ∉ defined).map .unknownLabel

/-- A label has no fault exactly if it is defined. -/
theorem labelFaults_eq_nil_iff {defined : List String} {label : Option String} :
    labelFaults defined label = [] ↔ ∀ name, label = some name → name ∈ defined := by
  rw [labelFaults, List.map_eq_nil_iff, List.filter_eq_nil_iff]
  simp

namespace Labels

variable {labels result : Labels} {id place : NodeId} {entries : List InstructionEntry}
  {label : String}

/-! ## Collecting -/

/-- Collecting labels reports those that are repeated. -/
theorem collect_reports (labels : Labels) (id : NodeId) (entries : List InstructionEntry) :
    Reports (labels.collect id entries)
      ((repeatedLabels labels.keys (entries.filterMap InstructionEntry.label)).map
        .duplicateLabel) := by
  induction entries generalizing labels id with
  | nil => exact .ok labels
  | cons entry rest ih =>
    rw [collect, List.filterMap_cons]
    cases hlabel : entry.label with
    | none => exact ih labels (id + 1)
    | some label =>
      simp only [repeatedLabels, ← OrderedMap.contains_iff_mem_keys]
      split
      · exact rfl
      · rename_i hnew
        have hkeys : (OrderedMap.insert labels label id).keys = labels.keys ++ [label] := by
          rw [OrderedMap.keys_insert, if_neg (by rwa [← OrderedMap.contains_iff_mem_keys])]
        rw [← hkeys]
        exact ih _ (id + 1)

/-- Collecting labels adds each of them with the place of its instruction, in order. -/
theorem entries_of_collect (h : labels.collect id entries = .ok result) :
    result.entries = labels.entries ++
      (entries.zipIdx id).filterMap fun e => e.1.label.map fun label => (label, e.2) := by
  induction entries generalizing labels id with
  | nil =>
    cases h
    exact (List.append_nil _).symm
  | cons entry rest ih =>
    rw [collect] at h
    rw [List.zipIdx_cons, List.filterMap_cons]
    cases hlabel : entry.label with
    | none =>
      rw [hlabel] at h
      exact ih h
    | some label =>
      simp only [hlabel] at h
      split at h
      · cases h
      · rename_i hnew
        rw [OrderedMap.contains_iff_mem_keys] at hnew
        have hentries : (OrderedMap.insert labels label id).entries =
            labels.entries ++ [(label, id)] :=
          OrderedMap.insertEntry_of_notMem id hnew
        rw [ih h, hentries, List.append_assoc]
        rfl

/-- The labels of a description, once collected, are its labels in order. -/
theorem keys_of_collect {description : Description}
    (h : collect ∅ 0 description.instructions = .ok result) : result.keys = description.labels := by
  calc result.entries.map Prod.fst
      = (description.instructions.zipIdx.filterMap fun e =>
          e.1.label.map fun label => (label, e.2)).map Prod.fst := by
        rw [entries_of_collect h]
        rfl
    _ = description.instructions.zipIdx.filterMap (InstructionEntry.label ∘ Prod.fst) := by
        simp [List.map_filterMap, Function.comp_def]
    _ = description.labels := by
        rw [← List.filterMap_map, List.zipIdx_map_fst]
        rfl

/-- A label of a description, once collected, is found at its one place. -/
theorem locates_of_collect {description : Description}
    (h : collect ∅ 0 description.instructions = .ok result) (hid : result.get? label = some id) :
    description.Locates label id := by
  intro place
  have hget : (∃ entry, description.instructions[place]? = some entry ∧ entry.label = some label) ↔
      result.get? label = some place := by
    rw [← OrderedMap.mem_entries_iff, entries_of_collect h]
    show _ ↔ _ ∈ [] ++ _
    rw [List.nil_append, List.mem_filterMap]
    constructor
    · rintro ⟨entry, hentry, hlabel⟩
      refine ⟨(entry, place), List.mk_mem_zipIdx_iff_getElem?.mpr hentry, ?_⟩
      rw [hlabel, Option.map_some]
    · rintro ⟨⟨entry, place'⟩, hentry, hpair⟩
      obtain ⟨name, hlabel, heq⟩ := Option.map_eq_some_iff.mp hpair
      cases heq
      exact ⟨entry, List.mk_mem_zipIdx_iff_getElem?.mp hentry, hlabel⟩
  rw [hget, hid, Option.some_inj]
  exact eq_comm

/-! ## Finding -/

/-- A label is found exactly if it has a place. -/
theorem find_eq_ok_iff : labels.find label = .ok id ↔ labels.get? label = some id := by
  rw [find]
  cases labels.get? label <;> simp

/-- Finding a label reports it if it is not defined. -/
theorem find_reports (labels : Labels) (label : String) :
    Reports (labels.find label) (labelFaults labels.keys (some label)) := by
  by_cases hmem : label ∈ labels.keys
  · have hfaults : labelFaults labels.keys (some label) = [] := by
      rw [labelFaults_eq_nil_iff]
      intro name hname
      cases hname
      exact hmem
    rw [← OrderedMap.contains_iff_mem_keys] at hmem
    obtain ⟨id, hid⟩ := Option.isSome_iff_exists.mp hmem
    rw [hfaults]
    exact ⟨id, find_eq_ok_iff.mpr hid⟩
  · have hfaults : labelFaults labels.keys (some label) = [.unknownLabel label] := by
      simp [labelFaults, hmem]
    rw [← OrderedMap.contains_iff_mem_keys, OrderedMap.contains, Bool.not_eq_true,
      Option.isSome_eq_false_iff, Option.isNone_iff_eq_none] at hmem
    rw [hfaults, find, hmem]
    exact rfl

/-- Finding a label that may be missing reports it if it is there and not defined. -/
theorem findOptional_reports (labels : Labels) (label : Option String) :
    Reports (labels.findOptional label) (labelFaults labels.keys label) := by
  cases label with
  | none => exact .ok none
  | some label => exact (labels.find_reports label).map

/-- Of a label that may be missing the place is found if it is there. -/
theorem rel_of_findOptional {label : Option String} {link : Option NodeId}
    (h : labels.findOptional label = .ok link) :
    Option.Rel (fun name id => labels.get? name = some id) label link := by
  cases label with
  | none =>
    cases h
    exact .none
  | some label =>
    obtain ⟨id, hid, rfl⟩ := map_eq_ok_iff.mp h
    exact .some (find_eq_ok_iff.mp hid)

end Labels

end StackLinker
