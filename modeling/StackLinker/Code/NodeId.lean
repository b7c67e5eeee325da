/-
# Node ids

A node of the code is named by its place, counted from zero.
-/
import StackLinker.Text.Numeral

namespace StackLinker

/-- The place of a node in the code. -/
abbrev NodeId := Nat

/-- A node id as messages show it. -/
def NodeId.label (id : NodeId) : String := "#" ++ Text.decimal id

end StackLinker
