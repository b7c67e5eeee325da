/-
# Documents

The grammar of documents: keys, values and statements. Arrays and tables that are written as values
nest at most `nesting` deep, and a key has fewer parts than `keyParts`.
-/
import StackLinker.Toml.Moment
import StackLinker.Toml.Number
import StackLinker.Toml.Quoted
import StackLinker.Toml.Table

namespace StackLinker.Toml

/-! ## Keys -/

/-- Tells whether a character may stand in a key without quotes. -/
def isBare (c : Char) : Bool := c.isAlphanum || c == '-' || c == '_'

/-- One part of a key. -/
def keyPart : Step String :=
  (basicText <|> literalText <|> takeWhile1 isBare).map String.ofList

/-- A key has fewer parts than this. -/
def keyParts : Nat := 80

/-- A key of one or more parts with points between them. -/
def key : Step KeyPath := keyPart.andThen fun first => do
  spaces
  let more ← ((char '.').andThen fun _ => do
    spaces
    let part ← keyPart.read
    spaces
    return part).many
  let parts := first :: more
  if parts.length < keyParts then return ⟨parts.dropLast, parts.getLastD first⟩ else failure

/-- A key with its value, the value being read by `value`. -/
def pair (value : Step Value) : Step (KeyPath × Value) := key.andThen fun k => do
  (char '=').read
  spaces
  let v ← value.read
  spaces
  return (k, v)

/-! ## Values -/

/-- A word that is a value. -/
def word : Step Value := (takeWhile1 Char.isLower).filterMap fun cs =>
  if cs = "true".toList then some (.boolean true)
  else if cs = "false".toList then some (.boolean false)
  else none

/-- A value that holds no other values. -/
def scalar : Step Value :=
  quoted.map Value.text <|>
    moment.map (fun _ => .moment) <|>
    decimalFraction.map (fun _ => .float) <|>
    specialNumber.map (fun _ => .float) <|>
    integer.map Value.integer <|>
    word

/-- An array whose items are read by `value`; a comma may follow the last item. -/
def array (value : Step Value) : Step Value := (char '[').andThen fun _ => do
  trivia
  let item : Step Value := value.andThen fun v => do
    trivia
    return v
  let items ← match ← item.optional with
    | none => pure []
    | some first => do
      let more ← ((char ',').andThen fun _ => do
        trivia
        item.read).many
      let _ ← (char ',').optional
      trivia
      pure (first :: more)
  (char ']').read
  return .array items

/-- A table that is written as a value; what its keys stand for is read by `value`. -/
def inlineTable (value : Step Value) : Step Value := (char '\x7b').andThen fun _ => do
  spaces
  let pairs ← match ← (pair value).optional with
    | none => pure []
    | some first => do
      let more ← ((char ',').andThen fun _ => do
        spaces
        (pair value).read).many
      pure (first :: more)
  (char '\x7d').read
  match Entries.ofPairs? pairs with
  | some entries => return .table .inline entries
  | none => failure

/-- A value that nests at most as deep as the argument says. -/
def value : Nat → Step Value
  | 0 => scalar
  | depth + 1 => scalar <|> array (value depth) <|> inlineTable (value depth)

/-- Values nest at most this deep. -/
def nesting : Nat := 79

/-! ## Documents -/

/-- A header. -/
def header : Step Statement :=
  ((char '[').andThen fun _ => do
    (char '[').read
    spaces
    let k ← key.read
    (char ']').read
    (char ']').read
    return .item k) <|>
  (char '[').andThen fun _ => do
    spaces
    let k ← key.read
    (char ']').read
    return .table k

/-- A statement. -/
def statement : Step Statement := header <|> (pair (value nesting)).map fun p => .pair p.1 p.2

/-- A line, with its statement if it has one; a document may hold nothing after it. -/
def line : Step (Option Statement) :=
  newline.map (fun _ => none) <|>
    (comment.andThen fun _ => lineEnd).map (fun _ => none) <|>
    statement.andThen fun s => do
      lineEnd
      return some s

/-- The statements of a document. -/
def document : Reader (List Statement) := do
  let _ ← (char '\uFEFF').optional
  spaces
  let lines ← (line.andThen fun s => do
    spaces
    return s).many
  atEnd
  return lines.filterMap id

/-- What a text sets, if it is a document. -/
def parse (text : String) : Option Entries := do
  let (statements, _) ← document text.toList
  Entries.ofStatements? statements

end StackLinker.Toml
