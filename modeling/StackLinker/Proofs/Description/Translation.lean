/-
# What a description stands for

A description stands for a program: a node for each instruction, with the places of labels as its
links, the variables as they are declared one after the other, and the tables of entries with the
places of their labels.  Main statement: building gives that program if nothing is wrong with the
description, and reports the first fault otherwise.
-/
import StackLinker.Proofs.Description.Faults
import StackLinker.Proofs.Storage.Registration

namespace StackLinker

/-! ## The program of a description -/

/-- Tells that a node is the one that an instruction stands for. -/
structure InstructionEntry.Describes (description : Description) (entry : InstructionEntry)
    (n : Node) :
    Prop where
  op : Opcode.parse entry.op = .ok n.op
  /-- The payload is the literal of the text, or pending, or missing. -/
  payload : n.payload =
    (entry.constant.map fun text => .literal (.ofText text)).or (entry.pending.map .pending)
  reference : n.reference = entry.reference
  width : n.width = entry.width
  target : Option.Rel description.Locates entry.target n.target
  carrier : Option.Rel description.Locates entry.carrier n.carrier
  address : n.address = none

/-- Tells that a declaration is the one that a variable stands for. -/
structure VariableEntry.Describes (description : Description) (entry : VariableEntry)
    (declared : String × Slot) : Prop where
  name : declared.1 = entry.name
  kind : declared.2.kind = entry.kind
  size : declared.2.size = entry.size
  link : Option.Rel description.Locates entry.instr declared.2.link

/-- Tells that a table has the places of the described labels under each name, in order.  Nothing is
registered under a name without labels. -/
def LabelTable.Describes (description : Description) (described : LabelTable) (table : EntryTable) :
    Prop :=
  List.Forall₂ (fun e registered => registered.1 = e.1 ∧
      List.Forall₂ description.Locates e.2 registered.2)
    (described.entries.filter fun e => e.2 ≠ []) table.entries

/-- Tells that a program is the one that a description stands for. -/
structure Description.Describes (description : Description) (program : Program) : Prop where
  /-- There is one node for each instruction. -/
  nodes : List.Forall₂ (InstructionEntry.Describes description) description.instructions
    program.code.nodes
  /-- The variables are declared one after the other. -/
  declarations : ∃ declared,
    List.Forall₂ (VariableEntry.Describes description) description.declarations declared ∧
      program.declarations = declared.foldl (fun table e => table.insert e.1 e.2) ∅
  arrays : description.arrays.Describes description program.tables.arrays
  strings : description.strings.Describes description program.tables.strings
  /-- No pass has begun. -/
  fresh : program.layout = none ∧ program.started = false

/-! ## Building the parts -/

variable {description : Description} {labels : Labels}

/-- A payload that is built is the one that the instruction has. -/
theorem InstructionEntry.payload_eq_of_ok {entry : InstructionEntry} {payload : Option Payload}
    (h : entry.payload = .ok payload) : payload =
      (entry.constant.map fun text => .literal (.ofText text)).or (entry.pending.map .pending) := by
  rw [InstructionEntry.payload] at h
  cases hconstant : entry.constant with
  | none =>
    cases hpending : entry.pending <;> rw [hconstant, hpending] at h <;> cases h <;> rfl
  | some text =>
    cases hpending : entry.pending <;> rw [hconstant, hpending] at h <;> cases h
    rfl

section Parts

variable (hlabels : ∀ {label id}, labels.get? label = some id → description.Locates label id)

include hlabels

/-- Of a label that may be missing the link is its place. -/
theorem Labels.locates_of_findOptional {label : Option String} {link : Option NodeId}
    (h : labels.findOptional label = .ok link) : Option.Rel description.Locates label link := by
  cases Labels.rel_of_findOptional h with
  | none => exact .none
  | some hid => exact .some (hlabels hid)

/-- A node that is built is the one that the instruction stands for. -/
theorem InstructionEntry.describes_of_build {entry : InstructionEntry} {n : Node}
    (h : entry.build labels = .ok n) : entry.Describes description n := by
  rw [build] at h
  obtain ⟨op, hop, h⟩ := bind_eq_ok_iff.mp h
  obtain ⟨payload, hpayload, h⟩ := bind_eq_ok_iff.mp h
  obtain ⟨target, htarget, h⟩ := bind_eq_ok_iff.mp h
  obtain ⟨carrier, hcarrier, h⟩ := bind_eq_ok_iff.mp h
  cases h
  exact ⟨hop, payload_eq_of_ok hpayload, rfl, rfl, Labels.locates_of_findOptional hlabels htarget,
    Labels.locates_of_findOptional hlabels hcarrier, rfl⟩

/-- A declaration that is built is the one that the variable stands for. -/
theorem VariableEntry.describes_of_build {entry : VariableEntry} {declared : String × Slot}
    (h : entry.build labels = .ok declared) : entry.Describes description declared := by
  rw [build] at h
  obtain ⟨link, hlink, h⟩ := bind_eq_ok_iff.mp h
  cases h
  exact ⟨rfl, rfl, rfl, Labels.locates_of_findOptional hlabels hlink⟩

/-! ## Building tables -/

/-- Under a name that stands last in a table the places of further labels are added at the end. -/
theorem entries_of_foldlM_register {table table' : EntryTable} {name : String} {ids : List NodeId}
    {before : List (String × List NodeId)} {entries : List String}
    (hentries : table.entries = before ++ [(name, ids)])
    (h : entries.foldlM (fun table label => (labels.find label).map (table.register name)) table =
      .ok table') :
    ∃ more, List.Forall₂ description.Locates entries more ∧
      table'.entries = before ++ [(name, ids ++ more)] := by
  induction entries generalizing table ids with
  | nil =>
    cases h
    exact ⟨[], .nil, by rw [hentries, List.append_nil]⟩
  | cons label rest ih =>
    rw [List.foldlM_cons] at h
    obtain ⟨middle, hmiddle, hrest⟩ := bind_eq_ok_iff.mp h
    obtain ⟨id, hid, rfl⟩ := map_eq_ok_iff.mp hmiddle
    have hregister := EntryTable.entries_register_of_entries hentries id
    obtain ⟨more, hmore, htable'⟩ := ih hregister hrest
    refine ⟨id :: more, .cons (hlabels (Labels.find_eq_ok_iff.mp hid)) hmore, ?_⟩
    rw [htable', List.append_assoc, List.singleton_append]

/-- A new name goes to the end of a table with the places of its labels, if it has any. -/
theorem entries_of_buildEntries {table table' : EntryTable} {name : String} {entries : List String}
    (hname : name ∉ table.keys) (h : buildEntries labels table name entries = .ok table') :
    ∃ ids, List.Forall₂ description.Locates entries ids ∧
      table'.entries = table.entries ++ if entries = [] then [] else [(name, ids)] := by
  cases entries with
  | nil =>
    cases h
    exact ⟨[], .nil, by rw [if_pos rfl, List.append_nil]⟩
  | cons label rest =>
    rw [buildEntries, List.foldlM_cons] at h
    obtain ⟨middle, hmiddle, hrest⟩ := bind_eq_ok_iff.mp h
    obtain ⟨id, hid, rfl⟩ := map_eq_ok_iff.mp hmiddle
    have hregister := EntryTable.entries_register_of_notMem hname id
    obtain ⟨more, hmore, htable'⟩ := entries_of_foldlM_register hlabels hregister hrest
    exact ⟨id :: more, .cons (hlabels (Labels.find_eq_ok_iff.mp hid)) hmore, htable'⟩

/-- Names that are new and different go to the end of a table one after the other. -/
theorem entries_of_foldlM_buildEntries {table table' : EntryTable}
    {described : List (String × List String)} (hnodup : (described.map Prod.fst).Nodup)
    (hnew : ∀ name ∈ described.map Prod.fst, name ∉ table.keys)
    (h : described.foldlM (fun table e => buildEntries labels table e.1 e.2) table = .ok table') :
    ∃ added, List.Forall₂ (fun e registered => registered.1 = e.1 ∧
        List.Forall₂ description.Locates e.2 registered.2)
      (described.filter fun e => e.2 ≠ []) added ∧ table'.entries = table.entries ++ added := by
  induction described generalizing table with
  | nil =>
    cases h
    exact ⟨[], .nil, (List.append_nil _).symm⟩
  | cons e rest ih =>
    obtain ⟨name, entries⟩ := e
    rw [List.map_cons, List.nodup_cons] at hnodup
    rw [List.foldlM_cons] at h
    obtain ⟨middle, hmiddle, hrest⟩ := bind_eq_ok_iff.mp h
    obtain ⟨ids, hids, hentries⟩ :=
      entries_of_buildEntries hlabels (hnew name List.mem_cons_self) hmiddle
    have hlater : ∀ later ∈ rest.map Prod.fst, later ∉ middle.keys := by
      intro later hmem
      have hold := hnew later (List.mem_cons_of_mem name hmem)
      have hne : later ≠ name := by
        rintro rfl
        exact hnodup.1 hmem
      rw [OrderedMap.keys, hentries, List.map_append, List.mem_append, not_or]
      refine ⟨hold, ?_⟩
      split <;> simp [hne]
    obtain ⟨added, hadded, htable'⟩ := ih hnodup.2 hlater hrest
    rw [hentries, List.append_assoc] at htable'
    refine ⟨_, ?_, htable'⟩
    by_cases hempty : entries = []
    · rw [List.filter_cons_of_neg (by simp [hempty]), if_pos hempty]
      exact hadded
    · rw [List.filter_cons_of_pos (by simp [hempty]), if_neg hempty]
      exact .cons ⟨rfl, hids⟩ hadded

/-- A table that is built is the one that is described. -/
theorem LabelTable.describes_of_buildTable {described : LabelTable} {table : EntryTable}
    (h : buildTable labels described = .ok table) : described.Describes description table := by
  have hnew : ∀ name ∈ described.entries.map Prod.fst, name ∉ (∅ : EntryTable).keys := by
    intro name _ hmem
    cases hmem
  obtain ⟨added, hadded, hentries⟩ :=
    entries_of_foldlM_buildEntries hlabels described.nodup_keys hnew h
  rw [LabelTable.Describes, hentries]
  exact hadded

end Parts

/-! ## Building the program -/

/-- A program that is built is the one that the description stands for. -/
theorem Description.describes_of_build {program : Program} {options : Options}
    (h : description.build = .ok (program, options)) :
    description.Describes program ∧ options = description.options := by
  rw [build] at h
  obtain ⟨labels, hcollect, h⟩ := bind_eq_ok_iff.mp h
  obtain ⟨nodes, hnodes, h⟩ := bind_eq_ok_iff.mp h
  obtain ⟨slots, hslots, h⟩ := bind_eq_ok_iff.mp h
  obtain ⟨arrays, harrays, h⟩ := bind_eq_ok_iff.mp h
  obtain ⟨strings, hstrings, h⟩ := bind_eq_ok_iff.mp h
  cases h
  have hlabels : ∀ {label id}, labels.get? label = some id → description.Locates label id :=
    fun hid => Labels.locates_of_collect hcollect hid
  refine ⟨⟨?_, ⟨slots, ?_, rfl⟩, ?_, ?_, rfl, rfl⟩, rfl⟩
  · exact (forall₂_of_mapM hnodes).imp fun _ _ =>
      InstructionEntry.describes_of_build hlabels
  · exact (forall₂_of_mapM hslots).imp fun _ _ => VariableEntry.describes_of_build hlabels
  · exact LabelTable.describes_of_buildTable hlabels harrays
  · exact LabelTable.describes_of_buildTable hlabels hstrings

/-- **Building is translation.**  Building succeeds exactly if nothing is wrong with the
description.  It gives the program that the description stands for, with the options that it asks
for, and otherwise the first fault of the description. -/
theorem Description.build_translates (description : Description) :
    ((∃ program options, description.build = .ok (program, options)) ↔ description.Sound) ∧
    (∀ program options, description.build = .ok (program, options) →
      description.Describes program ∧ options = description.options) ∧
    ∀ fault, description.build = .error fault ↔ description.faults.head? = some fault := by
  refine ⟨?_, fun _ _ => describes_of_build, fun _ => description.build_reports.eq_error_iff⟩
  rw [sound_iff_faults, ← description.build_reports.exists_ok_iff, Prod.exists]

/-- A loop with labels that are defined before and after their uses, and a table with a name that
has none. -/
def Description.loop : Description where
  options := ⟨4, 0⟩
  declarations := [⟨"n", .scalar, 2, some "slot"⟩, ⟨"buf", .array, 4, none⟩]
  instructions :=
    [{ label := some "top", op := "Target" },
      { op := "jump", target := some "top", carrier := some "dest" },
      { label := some "slot", op := "push", reference := some "n", width := 1 },
      { label := some "dest", op := "push", pending := some 0, width := 2 }]
  arrays := (OrderedMap.insert ∅ "none" []).insert "buf" ["dest", "slot"]

/-- A description with three faults: a mnemonic that is unknown, a target that is not defined, and a
label that is defined twice. -/
def Description.garbled : Description where
  instructions :=
    [{ label := some "a", op := "warp", target := some "nowhere" },
      { label := some "a", op := "stop" }]

/-- The jump of the loop gets the places of its labels and the table those of its entries.  Of three
faults the label that is defined twice is reported, although it stands last. -/
theorem Description.loop_translates :
    (∃ program, Description.loop.build = .ok (program, ⟨4, 0⟩) ∧
      Description.loop.Describes program ∧
      program.code.nodes[1]? = some { op := .jump, target := some 0, carrier := some 3 } ∧
      program.tables.arrays.entries = [("buf", [3, 2])]) ∧
    Description.garbled.faults = [.duplicateLabel "a", .unknownOpcode "warp",
      .unknownLabel "nowhere"] ∧
    Description.garbled.build = .error (.duplicateLabel "a") := by
  have hfaults : Description.garbled.faults =
      [.duplicateLabel "a", .unknownOpcode "warp", .unknownLabel "nowhere"] := rfl
  refine ⟨?_, hfaults, ((build_translates Description.garbled).2.2 _).mpr (by rw [hfaults]; rfl)⟩
  cases hbuild : Description.loop.build with
  | ok built =>
    obtain ⟨program, options⟩ := built
    obtain ⟨hdescribes, rfl⟩ := (build_translates Description.loop).2.1 _ _ hbuild
    cases hbuild
    exact ⟨_, rfl, hdescribes, rfl, rfl⟩
  | error fault => cases hbuild

end StackLinker
