/-
# What is wrong with a description

All that is wrong with a description can be listed: labels that are defined twice, wherever they
stand, then what is wrong with each instruction, each variable and each entry of a table in turn.
Building the description reports the first of these faults, and succeeds if there is none.
-/
import StackLinker.Proofs.Description.Labels

namespace StackLinker

/-! ## Faults of a description -/

/-- What is wrong with an instruction: first its mnemonic, then its payload, its target and its
carrier. -/
def InstructionEntry.faults (defined : List String) (entry : InstructionEntry) : List Fault :=
  (if (Opcode.parse entry.op).isOk then [] else [.unknownOpcode entry.op]) ++
    ((if entry.constant.isSome ∧ entry.pending.isSome then
        [.payloadConflict (entry.label.getD entry.op)] else []) ++
      (labelFaults defined entry.target ++ labelFaults defined entry.carrier))

/-- What is wrong with the labels of the entries of arrays or strings, in order. -/
def LabelTable.faults (defined : List String) (table : LabelTable) : List Fault :=
  table.entries.flatMap fun e => e.2.flatMap fun label => labelFaults defined (some label)

/-- All that is wrong with a description: first labels that are defined twice, then instructions,
variables, arrays and strings. -/
def Description.faults (description : Description) : List Fault :=
  (repeatedLabels [] description.labels).map .duplicateLabel ++
    (description.instructions.flatMap (InstructionEntry.faults description.labels) ++
      (description.declarations.flatMap
          (fun entry => labelFaults description.labels entry.instr) ++
        (LabelTable.faults description.labels description.arrays ++
          LabelTable.faults description.labels description.strings)))

/-- A description with which nothing is wrong. -/
structure Description.Sound (description : Description) : Prop where
  /-- No label is defined twice. -/
  labels_nodup : description.labels.Nodup
  /-- Every mnemonic is one of an operation. -/
  parses : ∀ entry ∈ description.instructions, ∃ op, Opcode.parse entry.op = .ok op
  /-- No instruction has two payloads. -/
  payload : ∀ entry ∈ description.instructions, entry.constant = none ∨ entry.pending = none
  /-- The targets of instructions are defined. -/
  target : ∀ entry ∈ description.instructions, ∀ label, entry.target = some label →
    label ∈ description.labels
  /-- The carriers of instructions are defined. -/
  carrier : ∀ entry ∈ description.instructions, ∀ label, entry.carrier = some label →
    label ∈ description.labels
  /-- The instructions of variables are defined. -/
  instr : ∀ entry ∈ description.declarations, ∀ label, entry.instr = some label →
    label ∈ description.labels
  /-- The entries of arrays are defined. -/
  array : ∀ name entries, description.arrays.get? name = some entries → ∀ label ∈ entries,
    label ∈ description.labels
  /-- The entries of strings are defined. -/
  string : ∀ name entries, description.strings.get? name = some entries → ∀ label ∈ entries,
    label ∈ description.labels

variable {description : Description} {defined : List String}

/-- Nothing is wrong with an instruction that has a mnemonic, at most one payload and defined
labels. -/
theorem InstructionEntry.faults_eq_nil_iff {entry : InstructionEntry} :
    entry.faults defined = [] ↔
      (∃ op, Opcode.parse entry.op = .ok op) ∧ (entry.constant = none ∨ entry.pending = none) ∧
        (∀ label, entry.target = some label → label ∈ defined) ∧
          ∀ label, entry.carrier = some label → label ∈ defined := by
  have hparse : (if (Opcode.parse entry.op).isOk then [] else [Fault.unknownOpcode entry.op]) = [] ↔
      ∃ op, Opcode.parse entry.op = .ok op := by
    cases Opcode.parse entry.op <;> simp [Except.isOk, Except.toBool]
  have hpayload : (if entry.constant.isSome ∧ entry.pending.isSome then
        [Fault.payloadConflict (entry.label.getD entry.op)] else []) = [] ↔
      entry.constant = none ∨ entry.pending = none := by
    cases entry.constant <;> cases entry.pending <;> simp
  rw [faults, List.append_eq_nil_iff, List.append_eq_nil_iff, List.append_eq_nil_iff,
    labelFaults_eq_nil_iff, labelFaults_eq_nil_iff, hparse, hpayload]

/-- Nothing is wrong with a table whose entries are all defined. -/
theorem LabelTable.faults_eq_nil_iff {table : LabelTable} :
    table.faults defined = [] ↔
      ∀ name entries, table.get? name = some entries → ∀ label ∈ entries, label ∈ defined := by
  rw [faults, List.flatMap_eq_nil_iff]
  constructor
  · intro h name entries hentries label hlabel
    have hfaults := List.flatMap_eq_nil_iff.mp (h _ (OrderedMap.mem_entries_iff.mpr hentries)) label
      hlabel
    exact labelFaults_eq_nil_iff.mp hfaults label rfl
  · rintro h ⟨name, entries⟩ hentries
    refine List.flatMap_eq_nil_iff.mpr ?_
    intro label hlabel
    refine labelFaults_eq_nil_iff.mpr ?_
    intro name' hname
    cases hname
    exact h name entries (OrderedMap.mem_entries_iff.mp hentries) label hlabel

/-- A description is sound exactly if its list of faults is empty. -/
theorem Description.sound_iff_faults : description.Sound ↔ description.faults = [] := by
  rw [faults, List.append_eq_nil_iff, List.append_eq_nil_iff, List.append_eq_nil_iff,
    List.append_eq_nil_iff, List.map_eq_nil_iff, repeatedLabels_eq_nil_iff List.nodup_nil,
    List.nil_append, List.flatMap_eq_nil_iff, List.flatMap_eq_nil_iff,
    LabelTable.faults_eq_nil_iff, LabelTable.faults_eq_nil_iff]
  simp only [InstructionEntry.faults_eq_nil_iff, labelFaults_eq_nil_iff]
  constructor
  · intro h
    refine ⟨h.labels_nodup, ?_, h.instr, h.array, h.string⟩
    intro entry hentry
    exact ⟨h.parses entry hentry, h.payload entry hentry, h.target entry hentry,
      h.carrier entry hentry⟩
  · rintro ⟨hnodup, hinstructions, hinstr, harray, hstring⟩
    refine ⟨hnodup, ?_, ?_, ?_, ?_, hinstr, harray, hstring⟩
    · intro entry hentry
      exact (hinstructions entry hentry).1
    · intro entry hentry
      exact (hinstructions entry hentry).2.1
    · intro entry hentry
      exact (hinstructions entry hentry).2.2.1
    · intro entry hentry
      exact (hinstructions entry hentry).2.2.2

/-! ## Building reports the first fault -/

/-- A mnemonic is reported if there is no operation for it. -/
theorem Opcode.parse_reports (text : String) :
    Reports (Opcode.parse text)
      (if (Opcode.parse text).isOk then [] else [.unknownOpcode text]) := by
  rw [Opcode.parse]
  split
  · exact .ok _
  · exact rfl

/-- The payload of an instruction is reported if there are two. -/
theorem InstructionEntry.payload_reports (entry : InstructionEntry) :
    Reports entry.payload (if entry.constant.isSome ∧ entry.pending.isSome then
      [.payloadConflict (entry.label.getD entry.op)] else []) := by
  rw [payload]
  cases entry.constant <;> cases entry.pending
  · exact .ok _
  · exact .ok _
  · exact .ok _
  · exact rfl

/-- Building an instruction reports what is wrong with it. -/
theorem InstructionEntry.build_reports (labels : Labels) (entry : InstructionEntry) :
    Reports (entry.build labels) (entry.faults labels.keys) := by
  have hop := Opcode.parse_reports entry.op
  rw [build, faults]
  -- Without this the search for the shape of the goal runs the parser.
  generalize Opcode.parse entry.op = parsed at hop ⊢
  refine hop.bind fun op _ => ?_
  refine entry.payload_reports.bind fun payload _ => ?_
  refine (labels.findOptional_reports entry.target).bind fun target _ => ?_
  exact (labels.findOptional_reports entry.carrier).bind_ok

/-- Building a variable reports its label. -/
theorem VariableEntry.build_reports (labels : Labels) (entry : VariableEntry) :
    Reports (entry.build labels) (labelFaults labels.keys entry.instr) :=
  (labels.findOptional_reports entry.instr).bind_ok

/-- Building a table reports the labels of its entries. -/
theorem buildTable_reports (labels : Labels) (described : LabelTable) :
    Reports (buildTable labels described) (described.faults labels.keys) := by
  refine Reports.foldlM (fun table e => ?_) described.entries ∅
  exact Reports.foldlM (fun table label => (labels.find_reports label).map) e.2 table

/-- Building a program reports what is wrong with its description. -/
theorem Description.build_reports (description : Description) :
    Reports description.build description.faults := by
  rw [build, faults]
  refine (Labels.collect_reports ∅ 0 description.instructions).bind fun labels hlabels => ?_
  rw [← Labels.keys_of_collect hlabels]
  refine (Reports.mapM (@InstructionEntry.build_reports labels) _).bind fun nodes _ => ?_
  refine (Reports.mapM (VariableEntry.build_reports labels) _).bind fun slots _ => ?_
  refine (buildTable_reports labels description.arrays).bind fun arrays _ => ?_
  exact (buildTable_reports labels description.strings).bind_ok

end StackLinker
