/-
# Quoted texts

The four ways to quote a text: with double or single quotes, on one line or on many. Double quotes
allow escapes, single quotes take all as it stands.
-/
import StackLinker.Text.Numeral
import StackLinker.Toml.Reader

namespace StackLinker.Toml

/-! ## Escapes -/

/-- A character given by a number of hexadecimal digits. -/
def codePoint (digits : Nat) : Reader Char := do
  let cs ← exactly (fun c => (Text.digitValue? 16 c).isSome) digits
  match Text.natural? 16 cs with
  | some n => if n.isValidChar then return Char.ofNat n else failure
  | none => failure

/-- A character written with a backslash. -/
def escape : Step Char := (char '\\').andThen fun _ => do
  let c ← (satisfy fun _ => true).read
  match c with
  | 'b' => return '\x08'
  | 'f' => return '\x0c'
  | 'n' => return '\n'
  | 'r' => return '\r'
  | 't' => return '\t'
  | '"' => return '"'
  | '\\' => return '\\'
  | 'u' => codePoint 4
  | 'U' => codePoint 8
  | _ => failure

/-! ## Texts on one line -/

/-- A text in double quotes on one line. -/
def basicText : Step (List Char) := (char '"').andThen fun _ => do
  let cs ← (satisfy (fun c => isPlain c && c != '"' && c != '\\') <|> escape).many
  (char '"').read
  return cs

/-- A text in single quotes on one line. -/
def literalText : Step (List Char) := (char '\'').andThen fun _ => do
  let cs ← takeWhile fun c => isPlain c && c != '\''
  (char '\'').read
  return cs

/-! ## Texts on many lines -/

/-- Three quotes and the end of the line after them, which does not count. -/
def openBlock (quote : Char) : Step Unit := (char quote).andThen fun _ => do
  (char quote).read
  (char quote).read
  let _ ← newline.optional

/-- One or two quotes inside a text on many lines. -/
def innerQuotes (quote : Char) : Step (List Char) :=
  (takeWhile1 (· == quote)).filterMap fun run => if run.length ≤ 2 then some run else none

/-- The three quotes that end a text on many lines, after up to two that belong to it. -/
def closeBlock (quote : Char) : Step (List Char) :=
  (takeWhile1 (· == quote)).filterMap fun run =>
    if 3 ≤ run.length ∧ run.length ≤ 5 then some (run.drop 3) else none

/-- A backslash at the end of a line: it takes away the blanks and ends of lines that follow. -/
def continuation : Step Unit := (char '\\').andThen fun _ => do
  spaces
  newline.read
  let blank : Step Unit := (takeWhile1 isSpace).map fun _ => ()
  let _ ← (blank <|> newline).many

/-- A text on many lines, made of given pieces; an end of line is a line feed, however it is
written. -/
def block (quote : Char) (piece : Step (List Char)) : Step (List Char) :=
  (openBlock quote).andThen fun _ => do
    let pieces ← ((newline.map fun _ => ['\n']) <|> piece <|> innerQuotes quote).many
    let last ← (closeBlock quote).read
    return pieces.flatten ++ last

/-- A text in double quotes on many lines. -/
def basicBlock : Step (List Char) :=
  block '"' ((satisfy fun c => isPlain c && c != '"' && c != '\\').map ([·]) <|>
    continuation.map (fun _ => []) <|> escape.map ([·]))

/-- A text in single quotes on many lines. -/
def literalBlock : Step (List Char) :=
  block '\'' ((satisfy fun c => isPlain c && c != '\'').map ([·]))

/-- A quoted text. -/
def quoted : Step String :=
  (basicBlock <|> basicText <|> literalBlock <|> literalText).map String.ofList

end StackLinker.Toml
