/-
# Building programs

A description becomes a program once every label is known. Labels may be used before they are
defined, so all of them are collected first; a label that is defined twice is a fault wherever it
stands.
-/
import StackLinker.Description.Basic

namespace StackLinker

/-! ## Labels -/

/-- Where each label is defined. -/
abbrev Labels := OrderedMap String NodeId

/-- Collects the labels of instructions, the first of which has place `id`. -/
def Labels.collect (labels : Labels) (id : NodeId) : List InstructionEntry → Except Fault Labels
  | [] => .ok labels
  | entry :: rest =>
    match entry.label with
    | none => labels.collect (id + 1) rest
    | some label =>
      if labels.contains label then .error (.duplicateLabel label)
      else Labels.collect (labels.insert label id) (id + 1) rest

/-- The place of a label. -/
def Labels.find (labels : Labels) (label : String) : Except Fault NodeId :=
  match labels.get? label with
  | some id => .ok id
  | none => .error (.unknownLabel label)

/-- The place of a label that may be missing. -/
def Labels.findOptional (labels : Labels) : Option String → Except Fault (Option NodeId)
  | none => .ok none
  | some label => (labels.find label).map some

/-! ## Parts of a program -/

/-- The payload of an instruction: its text, its relative offset or nothing, but not both. -/
def InstructionEntry.payload (entry : InstructionEntry) : Except Fault (Option Payload) :=
  match entry.constant, entry.pending with
  | some _, some _ => .error (.payloadConflict (entry.label.getD entry.op))
  | some text, none => .ok (some (.literal (.ofText text)))
  | none, some relative => .ok (some (.pending relative))
  | none, none => .ok none

/-- The node of an instruction. -/
def InstructionEntry.build (labels : Labels) (entry : InstructionEntry) : Except Fault Node := do
  let op ← Opcode.parse entry.op
  let payload ← entry.payload
  let target ← labels.findOptional entry.target
  let carrier ← labels.findOptional entry.carrier
  return { op, payload, reference := entry.reference, target, carrier, width := entry.width }

/-- The storage of a variable. -/
def VariableEntry.build (labels : Labels) (entry : VariableEntry) :
    Except Fault (String × Slot) := do
  let link ← labels.findOptional entry.instr
  return (entry.name, { kind := entry.kind, size := entry.size, link })

/-- The entries under one name, in order. -/
def buildEntries (labels : Labels) (table : EntryTable) (name : String) (entries : List String) :
    Except Fault EntryTable :=
  entries.foldlM (fun table label => (labels.find label).map (table.register name)) table

/-- The table of entries. -/
def buildTable (labels : Labels) (described : LabelTable) : Except Fault EntryTable :=
  described.entries.foldlM (fun table e => buildEntries labels table e.1 e.2) ∅

/-! ## The program -/

/-- The program that a description stands for, with the options that it asks for. -/
def Description.build (description : Description) : Except Fault (Program × Options) := do
  let labels ← Labels.collect ∅ 0 description.instructions
  let nodes ← description.instructions.mapM (InstructionEntry.build labels)
  let slots ← description.declarations.mapM (VariableEntry.build labels)
  let arrays ← buildTable labels description.arrays
  let strings ← buildTable labels description.strings
  return ({ code := ⟨nodes⟩, declarations := .ofList slots, tables := { arrays, strings } },
    description.options)

end StackLinker
