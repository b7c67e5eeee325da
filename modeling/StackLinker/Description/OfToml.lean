/-
# Descriptions from documents

How a document describes a program. A record is a table with the names of its fields, or an array
with the fields in order. Fields that a record does not know are refused, except in `options`;
numbers have to fit their field.
-/
import StackLinker.Description.Basic
import StackLinker.Toml.Document

namespace StackLinker

open Toml (Value Entries)

/-! ## Fields -/

namespace Toml.Value

/-- A text. -/
def text? : Value → Option String
  | .text s => some s
  | _ => none

/-- An integer. -/
def offset? : Value → Option Offset
  | .integer n => some n
  | _ => none

/-- An integer that is not negative. -/
def word64? : Value → Option UInt64
  | .integer n => if 0 ≤ n.toInt then some (UInt64.ofNat n.toInt.toNat) else none
  | _ => none

/-- An integer that is not negative and fits 32 bits. -/
def word32? : Value → Option UInt32
  | .integer n =>
    if 0 ≤ n.toInt ∧ n.toInt.toNat < UInt32.size then some (UInt32.ofNat n.toInt.toNat)
    else none
  | _ => none

/-- The items of an array. -/
def items? : Value → Option (List Value)
  | .array items => some items
  | .tables items => some (items.map (Value.table .header))
  | _ => none

/-- An array of items that are read by `item`. -/
def list? {α : Type} (item : Value → Option α) (v : Value) : Option (List α) :=
  v.items?.bind fun items => items.mapM item

/-- The fields of a record with the given names.  A closed record has no others; an open record may
even be a moment, and has no field then. -/
def fields? (names : List String) (closed : Bool) : Value → Option (String → Option Value)
  | .table _ entries =>
    if closed && !entries.all fun e => names.contains e.1 then none
    else some fun name => entries.lookup name
  | .array items => some fun name => (names.zip items).lookup name
  | .tables items => some fun name => (names.zip (items.map (Value.table .header))).lookup name
  | .moment => if closed then none else some fun _ => none
  | _ => none

end Toml.Value

/-- A field that may be missing. -/
def optionalField {α : Type} (read : Value → Option α) : Option Value → Option (Option α)
  | none => some none
  | some v => (read v).map some

/-- A field with a value to stand in where it is missing. -/
def fieldOr {α : Type} (read : Value → Option α) (missing : α) : Option Value → Option α
  | none => some missing
  | some v => read v

/-! ## Records -/

/-- The kind of storage with a name. -/
def SlotKind.ofName? (name : String) : Option SlotKind :=
  match name with
  | "scalar" => some .scalar
  | "array" => some .array
  | "string" => some .string
  | "other" => some .other
  | _ => none

/-- A kind of storage: its name, or a table with the name as its only key and nothing below it. -/
def SlotKind.ofToml? : Value → Option SlotKind
  | .text name => SlotKind.ofName? name
  | .table _ [(name, .array [])] => SlotKind.ofName? name
  | .table _ [(name, .table _ [])] => SlotKind.ofName? name
  | _ => none

/-- The options of a description. -/
def Options.ofToml? (v : Value) : Option Options := do
  let field ← v.fields? ["base_address", "memory_base"] false
  let addressBase ← fieldOr Value.word64? 0 (field "base_address")
  let memoryBase ← fieldOr Value.offset? 0 (field "memory_base")
  return { addressBase, memoryBase }

/-- A variable of a description. -/
def VariableEntry.ofToml? (v : Value) : Option VariableEntry := do
  let field ← v.fields? ["name", "kind", "size", "instr"] true
  let name ← (field "name").bind Value.text?
  let kind ← (field "kind").bind SlotKind.ofToml?
  let size ← fieldOr Value.word64? 0 (field "size")
  let instr ← optionalField Value.text? (field "instr")
  return { name, kind, size, instr }

/-- An instruction of a description. -/
def InstructionEntry.ofToml? (v : Value) : Option InstructionEntry := do
  let field ← v.fields?
    ["label", "op", "constant", "pending", "const_ref", "width", "target", "target_num"] true
  let label ← optionalField Value.text? (field "label")
  let op ← fieldOr Value.text? "" (field "op")
  let constant ← optionalField Value.text? (field "constant")
  let pending ← optionalField Value.offset? (field "pending")
  let reference ← optionalField Value.text? (field "const_ref")
  let width ← fieldOr Value.word32? 0 (field "width")
  let target ← optionalField Value.text? (field "target")
  let carrier ← optionalField Value.text? (field "target_num")
  return { label, op, constant, pending, reference, width, target, carrier }

/-- A table of labels. -/
def labelTableOfToml? : Value → Option LabelTable
  | .table _ entries => do
    let lists ← entries.mapM fun e => do return (e.1, ← e.2.list? Value.text?)
    return .ofList lists
  | _ => none

/-! ## Descriptions -/

/-- The description that the entries of a document stand for. -/
def Description.ofEntries? (entries : Entries) : Option Description := do
  let field ← (Value.table .header entries).fields?
    ["options", "variables", "instructions", "arrays", "strings"] true
  let options ← fieldOr Options.ofToml? {} (field "options")
  let declarations ← fieldOr (Value.list? VariableEntry.ofToml?) [] (field "variables")
  let instructions ← fieldOr (Value.list? InstructionEntry.ofToml?) [] (field "instructions")
  let arrays ← fieldOr labelTableOfToml? ∅ (field "arrays")
  let strings ← fieldOr labelTableOfToml? ∅ (field "strings")
  return { options, declarations, instructions, arrays, strings }

/-- The description that a text stands for.  What the reader of documents says about a text that
stands for none is given by `reason`. -/
def Description.parse (reason : String → String) (text : String) : Except Fault Description :=
  match (Toml.parse text).bind Description.ofEntries? with
  | some description => .ok description
  | none => .error (.malformedDescription (reason text))

end StackLinker
