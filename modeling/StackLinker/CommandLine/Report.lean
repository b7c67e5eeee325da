/-
# Reports

What a pass did, in words: the ranges of storage and of code, the number of jumps and the place of
each variable. Numbers are hexadecimal, a negative offset as the word that holds it.
-/
import StackLinker.Program.Basic
import StackLinker.Text.Column

namespace StackLinker.CommandLine

/-- An offset in a report. -/
def showOffset (x : Offset) : String := "0x" ++ Text.hexadecimal 4 x.toUInt64.toNat

/-- An address in a report. -/
def showAddress (a : Address) : String := "0x" ++ Text.hexadecimal 4 a.toNat

/-- A range in a report. -/
def showRange (start stop : String) : String := start ++ ".." ++ stop

/-- The line of a variable. -/
def variableLine (name : String) (placement : Placement) : String :=
  "  " ++ Text.column 16 name ++ " " ++ showOffset placement.position ++ "\n"

/-- The report on a pass: an empty line, what it did, and a line for each variable. -/
def report (options : Options) (summary : Summary) (layout : Option Layout) : String :=
  let memory := showRange (showOffset options.memoryBase) (showOffset summary.memoryStop)
  let addresses := showRange (showAddress options.addressBase) (showAddress summary.addressStop)
  let placements := match layout with
    | some layout => layout.placements.entries
    | none => []
  "\n" ++
  "Memory:     " ++ memory ++ "\n" ++
  "Addresses:  " ++ addresses ++ "\n" ++
  "Relocated:  " ++ Text.decimal summary.relocated ++ " jump targets\n" ++
  String.join (placements.map fun e => variableLine e.1 e.2)

end StackLinker.CommandLine
