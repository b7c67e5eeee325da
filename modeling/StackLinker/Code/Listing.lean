/-
# Listings

One line for each node: its address in a column of three characters, its mnemonic in a column of
twelve, and its payload.
-/
import StackLinker.Code.Basic
import StackLinker.Text.Column

namespace StackLinker

/-- The line of a node; a question mark stands for a missing address and a dash for a missing
payload. -/
def Node.line (n : Node) : String :=
  let address := match n.address with
    | some a => Text.decimal a.toNat
    | none => "?"
  let payload := match n.payload with
    | some p => p.render
    | none => "-"
  Text.column 3 address ++ " " ++ Text.column 12 n.op.mnemonic ++ " : " ++ payload ++ "\n"

/-- The lines of the code. -/
def Code.listing (code : Code) : String := String.join (code.nodes.map Node.line)

end StackLinker
