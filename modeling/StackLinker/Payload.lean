/-
# Payloads

What an instruction carries: a literal, or an offset that is relative to the place of a variable and
still waits for it.
-/
import StackLinker.JumpAddress
import StackLinker.Text.Blank

namespace StackLinker

/-! ## Literals -/

/-- A final value, as the encoder reads it. -/
inductive Literal where
  | number (value : Offset)
  /-- A text, kept as it was given. -/
  | text (value : String)
  | address (value : JumpAddress)
  deriving DecidableEq

namespace Literal

/-- A literal as listings show it. -/
def render : Literal → String
  | number n => Text.decimal n.toInt
  | text s => s
  | address a => a.render

/-- The offset that a decimal numeral stands for, if it fits. -/
def offset? (cs : List Char) : Option Offset := (Text.integer? 10 cs).bind Offset.ofInt?

/-- The literal for a text: a number if the text is how that number is written, else the text
itself. -/
def ofText (s : String) : Literal :=
  match offset? s.toList with
  | some n => if Text.decimal n.toInt = s then number n else text s
  | none => text s

end Literal

/-! ## Payloads -/

/-- What an instruction carries. -/
inductive Payload where
  /-- An offset relative to the place of a variable. -/
  | pending (relative : Offset)
  | literal (value : Literal)
  deriving DecidableEq

namespace Payload

/-- The payload with a final number. -/
def number (n : Offset) : Payload := literal (.number n)

/-- The payload with the destination of a jump. -/
def address (a : JumpAddress) : Payload := literal (.address a)

/-- Tells whether a payload is final. -/
def isFinal : Payload → Bool
  | pending _ => false
  | literal _ => true

/-- The value that is shifted by the place of a variable: the number, also when it is given as text
with blanks around it, and zero for what is no number. -/
def relativeOffset : Payload → Offset
  | pending n => n
  | literal (.number n) => n
  | literal (.text s) => (Literal.offset? (Text.trimChars s.toList)).getD 0
  | literal (.address _) => 0

/-- A payload as listings show it. -/
def render : Payload → String
  | pending n => "<rel " ++ Text.decimal n.toInt ++ ">"
  | literal l => l.render

end Payload

end StackLinker
