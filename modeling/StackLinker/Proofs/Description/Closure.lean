/-
# Built programs are closed

A label stands for the place of an instruction, and there is a node for every instruction.  So all
links of a built program lie in its code: those of nodes, of variables and of both tables.  Main
statement: nothing can be wrong with a built program but a name that is not declared, and a pass
relocates every jump that is described with both labels.
-/
import StackLinker.Proofs.Description.Translation
import StackLinker.Proofs.Pairing
import StackLinker.Proofs.Program.Carriers
import StackLinker.Proofs.Program.Completeness

namespace StackLinker

/-! ## Names and jumps of a description -/

/-- The names of the variables that a description declares. -/
def Description.names (description : Description) : List String :=
  description.declarations.map VariableEntry.name

/-- Every name that a description uses is one that it declares; an empty name is no reference, and a
name without entries is not used. -/
structure Description.DeclaresNames (description : Description) : Prop where
  reference : ∀ entry ∈ description.instructions, ∀ name, entry.reference = some name → name ≠ "" →
    name ∈ description.names
  array : ∀ name labels, description.arrays.get? name = some labels → labels ≠ [] →
    name ∈ description.names
  string : ∀ name labels, description.strings.get? name = some labels → labels ≠ [] →
    name ∈ description.names

/-- Tells whether an instruction is a jump with labels for its target and its carrier. -/
def InstructionEntry.isLinkedJump (entry : InstructionEntry) : Bool :=
  (Opcode.parse entry.op).toOption.any Opcode.isJump && entry.target.isSome && entry.carrier.isSome

/-! ## Links that come from labels -/

variable {description : Description} {program : Program}

/-- The place of a label lies in the code that is described. -/
theorem Description.Describes.contains_of_locates (h : description.Describes program)
    {label : String} {id : NodeId} (hid : description.Locates label id) :
    program.code.contains id = true := by
  obtain ⟨entry, hentry, -⟩ := (hid id).mpr rfl
  have hlt : id < description.instructions.length := (List.getElem?_eq_some_iff.mp hentry).1
  rw [h.nodes.length_eq] at hlt
  exact decide_eq_true hlt

/-- A link that comes from a label leads to the place of the label. -/
theorem exists_label_of_rel {label : Option String} {link : Option NodeId} {id : NodeId}
    (h : Option.Rel description.Locates label link) (hlink : link = some id) :
    ∃ name, label = some name ∧ description.Locates name id := by
  cases h with
  | none => cases hlink
  | some hid =>
    cases hlink
    exact ⟨_, rfl, hid⟩

namespace LabelTable.Describes

variable {described : LabelTable} {table : EntryTable} (h : described.Describes description table)

include h

/-- The entries under a name are the places of labels that are described under it. -/
theorem exists_labels {name : String} {id : NodeId} (hid : id ∈ table.entriesOf name) :
    ∃ labels, described.get? name = some labels ∧ labels ≠ [] ∧
      ∃ label, description.Locates label id := by
  rw [EntryTable.entriesOf] at hid
  cases hids : table.get? name with
  | none => simp [hids] at hid
  | some ids =>
    rw [hids, Option.getD_some] at hid
    obtain ⟨place, hplace⟩ := List.getElem?_of_mem (OrderedMap.mem_entries_iff.mpr hids)
    obtain ⟨⟨name', labels⟩, hentry, rfl, hlabels⟩ := exists_item h hplace
    obtain ⟨hmem, hne⟩ := List.mem_filter.mp (List.mem_of_getElem? hentry)
    obtain ⟨index, hindex⟩ := List.getElem?_of_mem hid
    obtain ⟨label, -, hlocates⟩ := exists_item hlabels hindex
    exact ⟨labels, OrderedMap.mem_entries_iff.mp hmem, by simpa using hne, label, hlocates⟩

/-- A name with labels has entries. -/
theorem exists_id {name : String} {labels : List String}
    (hlabels : described.get? name = some labels)
    (hne : labels ≠ []) : ∃ id, id ∈ table.entriesOf name := by
  have hmem : (name, labels) ∈ described.entries.filter fun e => e.2 ≠ [] :=
    List.mem_filter.mpr ⟨OrderedMap.mem_entries_iff.mpr hlabels, by simpa using hne⟩
  obtain ⟨place, hplace⟩ := List.getElem?_of_mem hmem
  obtain ⟨⟨name', ids⟩, hentry, rfl, hids⟩ := exists_partner h hplace
  have hget := OrderedMap.mem_entries_iff.mp (List.mem_of_getElem? hentry)
  cases hids with
  | nil => exact absurd rfl hne
  | @cons label id =>
    refine ⟨id, ?_⟩
    rw [EntryTable.entriesOf, hget, Option.getD_some]
    exact List.mem_cons_self

end LabelTable.Describes

namespace Description.Describes

variable (h : description.Describes program)

include h

/-- A program that is described is closed: each of its links is the place of a label. -/
theorem closed : program.Closed := by
  have hnode : ∀ {id n}, program.code.get? id = some n →
      ∃ entry, InstructionEntry.Describes description entry n := by
    intro id n hn
    obtain ⟨entry, -, hentry⟩ := exists_item h.nodes hn
    exact ⟨entry, hentry⟩
  refine ⟨?_, ?_, ?_, ?_, ?_⟩
  · intro id n link hn hlink
    obtain ⟨entry, hentry⟩ := hnode hn
    obtain ⟨label, -, hlocates⟩ := exists_label_of_rel hentry.target hlink
    exact h.contains_of_locates hlocates
  · intro id n link hn hlink
    obtain ⟨entry, hentry⟩ := hnode hn
    obtain ⟨label, -, hlocates⟩ := exists_label_of_rel hentry.carrier hlink
    exact h.contains_of_locates hlocates
  · intro name slot id hslot hlink
    -- Of several declarations of a name the last stays, and it is described like all others.
    obtain ⟨declared, hdeclared, hprogram⟩ := h.declarations
    rw [hprogram] at hslot
    obtain ⟨place, hplace⟩ := List.getElem?_of_mem (OrderedMap.mem_of_get?_foldl_insert hslot)
    obtain ⟨entry, -, hentry⟩ := exists_item hdeclared hplace
    obtain ⟨label, -, hlocates⟩ := exists_label_of_rel hentry.link hlink
    exact h.contains_of_locates hlocates
  · intro name id hid
    obtain ⟨-, -, -, label, hlocates⟩ := h.arrays.exists_labels hid
    exact h.contains_of_locates hlocates
  · intro name id hid
    obtain ⟨-, -, -, label, hlocates⟩ := h.strings.exists_labels hid
    exact h.contains_of_locates hlocates

/-- The variables of a program are those that its description declares. -/
theorem contains_iff_mem_names (name : String) :
    program.declarations.contains name = true ↔ name ∈ description.names := by
  obtain ⟨declared, hdeclared, hprogram⟩ := h.declarations
  have hnames : description.names = declared.map Prod.fst :=
    map_eq_of_forall₂ hdeclared fun _ _ hentry => hentry.name.symm
  rw [hprogram, OrderedMap.contains_foldl_insert_iff, hnames]

/-- A program declares the names that it uses exactly if its description does. -/
theorem declares_iff : program.Declares ↔ description.DeclaresNames := by
  constructor
  · intro hdeclares
    refine ⟨?_, ?_, ?_⟩
    · intro entry hmem name hreference hne
      obtain ⟨place, hplace⟩ := List.getElem?_of_mem hmem
      obtain ⟨n, hn, hentry⟩ := exists_partner h.nodes hplace
      rw [← hentry.reference] at hreference
      rw [← h.contains_iff_mem_names]
      exact hdeclares.reference hn (Option.filter_eq_some_iff.mpr ⟨hreference, by simpa using hne⟩)
    · intro name labels hlabels hne
      obtain ⟨id, hid⟩ := h.arrays.exists_id hlabels hne
      exact (h.contains_iff_mem_names name).mp (hdeclares.array hid)
    · intro name labels hlabels hne
      obtain ⟨id, hid⟩ := h.strings.exists_id hlabels hne
      exact (h.contains_iff_mem_names name).mp (hdeclares.string hid)
  · intro hnames
    refine ⟨?_, ?_, ?_⟩
    · intro id n name hn hname
      obtain ⟨entry, hplace, hentry⟩ := exists_item h.nodes hn
      obtain ⟨hreference, hne⟩ := Option.filter_eq_some_iff.mp hname
      rw [hentry.reference] at hreference
      rw [h.contains_iff_mem_names]
      exact hnames.reference entry (List.mem_of_getElem? hplace) name hreference
        (by simpa using hne)
    · intro name id hid
      obtain ⟨labels, hlabels, hne, -⟩ := h.arrays.exists_labels hid
      exact (h.contains_iff_mem_names name).mpr (hnames.array name labels hlabels hne)
    · intro name id hid
      obtain ⟨labels, hlabels, hne, -⟩ := h.strings.exists_labels hid
      exact (h.contains_iff_mem_names name).mpr (hnames.string name labels hlabels hne)

/-! ## Jumps that come from labels -/

/-- A program has as many jumps with both links as its description has with both labels. -/
theorem countP_isLinkedJump :
    description.instructions.countP InstructionEntry.isLinkedJump =
      program.code.nodes.countP Node.isLinkedJump := by
  refine countP_eq_of_forall₂ h.nodes ?_
  intro entry n hentry
  rw [InstructionEntry.isLinkedJump, Node.isLinkedJump, hentry.op, isSome_eq_of_rel hentry.target,
    isSome_eq_of_rel hentry.carrier]
  rfl

/-- A jump that is described with both labels is a node with both links. -/
theorem exists_jump {place : NodeId} {entry : InstructionEntry}
    (hentry : description.instructions[place]? = some entry) (hjump : entry.isLinkedJump = true) :
    ∃ n target carrier, program.code.get? place = some n ∧ n.JumpsTo target carrier := by
  obtain ⟨n, hn, hdescribes⟩ := exists_partner h.nodes hentry
  rw [InstructionEntry.isLinkedJump, hdescribes.op, isSome_eq_of_rel hdescribes.target,
    isSome_eq_of_rel hdescribes.carrier] at hjump
  simp only [Except.toOption, Option.any_some, Bool.and_eq_true, Option.isSome_iff_exists] at hjump
  obtain ⟨⟨hop, target, htarget⟩, carrier, hcarrier⟩ := hjump
  exact ⟨n, target, carrier, hn, hop, htarget, hcarrier⟩

end Description.Describes

/-! ## Built programs -/

/-- **Built programs are closed.**  No link of a built program leads out of its code, so it is valid
exactly if its description declares the names that it uses, and otherwise such a name is reported.
A pass over it, checked or not, relocates the jumps that are described with both labels, neither
more nor fewer, and each of them finds an address with its carrier. -/
theorem Description.built_program_is_closed {asked : Options}
    (h : description.build = .ok (program, asked)) :
    (∀ id link, program.validate ≠ .error (.danglingReference id link)) ∧
    (∀ name id, program.validate ≠ .error (.danglingEntry name id)) ∧
    (program.validate = .ok () ↔ description.DeclaresNames) ∧
    (¬ description.DeclaresNames → ∃ name id,
      program.validate = .error (.undefinedVariable name id) ∧ name ∉ description.names) ∧
    ∀ options summary resolved, program.resolve options = (.ok summary, resolved) →
      summary.relocated = description.instructions.countP InstructionEntry.isLinkedJump ∧
      ∀ place entry, description.instructions[place]? = some entry → entry.isLinkedJump = true →
        ∃ n target carrier last bytes, program.code.get? place = some n ∧
          n.JumpsTo target carrier ∧ program.code.lastTarget? carrier = some last ∧
          (resolved.code.get? carrier).bind Node.payload = some (.address bytes) ∧
          resolved.code.addressOf? last = some bytes.decode := by
  obtain ⟨hdescribes, -⟩ := describes_of_build h
  have hclosed := hdescribes.closed
  have hundefined : ∀ fault, program.validate = .error fault →
      ∃ name id, fault = .undefinedVariable name id ∧ program.declarations.contains name = false :=
    fun fault hfault => hclosed.undefined_of_mem_faults (Program.mem_faults_of_validate hfault)
  refine ⟨?_, ?_, ?_, ?_, ?_⟩
  · intro id link hfault
    obtain ⟨_, _, heq, -⟩ := hundefined _ hfault
    cases heq
  · intro name id hfault
    obtain ⟨_, _, heq, -⟩ := hundefined _ hfault
    cases heq
  · rw [← hdescribes.declares_iff, hclosed.validate_eq_ok_iff_declares]
  · intro hnames
    rw [← hdescribes.declares_iff, ← hclosed.validate_eq_ok_iff_declares] at hnames
    cases hvalidate : program.validate with
    | ok => exact absurd hvalidate hnames
    | error fault =>
      obtain ⟨name, id, rfl, hname⟩ := hundefined fault hvalidate
      refine ⟨name, id, rfl, ?_⟩
      rw [← hdescribes.contains_iff_mem_names, hname]
      exact Bool.false_ne_true
  · intro options summary resolved hresolve
    obtain ⟨plan, hsettles⟩ := (Program.pass_of_resolve hresolve).settles
    refine ⟨?_, ?_⟩
    · rw [hsettles.relocated, hclosed.countP_relocates, hdescribes.countP_isLinkedJump]
    · intro place entry hentry hjump
      obtain ⟨n, target, carrier, hn, hjumps⟩ := hdescribes.exists_jump hentry hjump
      obtain ⟨last, bytes, hlast, hbytes, haddress⟩ := hsettles.exists_last_bytes hn hjumps
        (hclosed.target hn hjumps.target) (hclosed.carrier hn hjumps.carrier)
      exact ⟨n, target, carrier, last, bytes, hn, hjumps, hlast, hbytes, haddress⟩

/-- A description that refers to a variable which it does not declare, under a jump to itself. -/
def Description.undeclared : Description where
  instructions :=
    [{ label := some "top", op := "jumpi", target := some "top", carrier := some "top" },
      { op := "push", reference := some "ghost", width := 1 }]

/-- The loop is closed and declares its names, so it is valid, and a pass relocates its one jump.
The other description builds as well and has its jump relocated, but is reported for its
reference. -/
theorem Description.loop_is_closed :
    (∃ program summary, Description.loop.build = .ok (program, ⟨4, 0⟩) ∧
      program.validate = .ok () ∧ Description.loop.DeclaresNames ∧
      (program.resolve ⟨4, 0⟩).1 = .ok summary ∧
      summary.relocated = Description.loop.instructions.countP InstructionEntry.isLinkedJump) ∧
    ∃ program summary, Description.undeclared.build = .ok (program, {}) ∧
      (∃ name id, program.validate = .error (.undefinedVariable name id) ∧
        name ∉ Description.undeclared.names) ∧
      (program.resolve {}).1 = .ok summary ∧
      ∃ n target carrier bytes, program.code.get? 0 = some n ∧ n.JumpsTo target carrier ∧
        ((program.resolve {}).2.code.get? carrier).bind Node.payload = some (.address bytes) := by
  constructor
  · obtain ⟨program, hbuild, hvalid, hsummary⟩ : ∃ program,
        Description.loop.build = .ok (program, ⟨4, 0⟩) ∧ program.validate = .ok () ∧
          (program.resolve ⟨4, 0⟩).1 = .ok ⟨6, 8, 1⟩ := ⟨_, rfl, rfl, rfl⟩
    obtain ⟨-, -, hdeclares, -, hpass⟩ := built_program_is_closed hbuild
    exact ⟨program, _, hbuild, hvalid, hdeclares.mp hvalid, hsummary,
      (hpass ⟨4, 0⟩ _ _ (Prod.ext hsummary rfl)).1⟩
  · obtain ⟨program, hbuild, hinvalid, hsummary⟩ : ∃ program,
        Description.undeclared.build = .ok (program, {}) ∧ program.validate ≠ .ok () ∧
          (program.resolve {}).1 = .ok ⟨0, 2, 1⟩ := ⟨_, rfl, by decide, rfl⟩
    obtain ⟨-, -, hdeclares, hundefined, hpass⟩ := built_program_is_closed hbuild
    obtain ⟨n, target, carrier, -, bytes, hn, hjump, -, hbytes, -⟩ :=
      (hpass {} _ _ (Prod.ext hsummary rfl)).2 0 _ rfl rfl
    exact ⟨program, _, hbuild, hundefined fun hnames => hinvalid (hdeclares.mpr hnames), hsummary,
      n, target, carrier, bytes, hn, hjump, hbytes⟩

end StackLinker
