/-
# Program descriptions

A program as its author writes it: instructions refer to each other by label, payloads are texts.
-/
import StackLinker.Program.Basic

namespace StackLinker

/-- A variable of a description. -/
structure VariableEntry where
  name : String
  kind : SlotKind
  size : UInt64 := 0
  /-- The label of the instruction that gets the offset. -/
  instr : Option String := none
  deriving DecidableEq

/-- An instruction of a description. -/
structure InstructionEntry where
  /-- The name by which others refer to the instruction. -/
  label : Option String := none
  /-- The mnemonic. -/
  op : String := ""
  /-- The text of a final payload. -/
  constant : Option String := none
  /-- A payload relative to the place of a variable. -/
  pending : Option Offset := none
  /-- The variable whose position becomes the payload. -/
  reference : Option String := none
  /-- The number of address units of a push. -/
  width : UInt32 := 0
  /-- The label of the destination of a jump. -/
  target : Option String := none
  /-- The label of the instruction that carries the address of the destination. -/
  carrier : Option String := none
  deriving DecidableEq

/-- The labels of the entries of arrays or strings, under the names of their variables. -/
abbrev LabelTable := OrderedMap String (List String)

/-- A program as its author writes it. -/
structure Description where
  options : Options := {}
  declarations : List VariableEntry := []
  instructions : List InstructionEntry := []
  arrays : LabelTable := ∅
  strings : LabelTable := ∅
  deriving DecidableEq

end StackLinker
