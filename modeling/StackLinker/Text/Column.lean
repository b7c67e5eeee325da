/-
# Columns

Texts filled up to the width of a column. The width counts characters.
-/
namespace StackLinker.Text

/-- A text with blanks after it up to a least width. -/
def column (width : Nat) (s : String) : String := String.ofList (s.toList.rightpad width ' ')

end StackLinker.Text
