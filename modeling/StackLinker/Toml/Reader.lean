/-
# Readers

A reader takes a value off the front of a text. Its type says what it leaves: a `Reader` leaves a
text that is not longer, a `Step` leaves one that is shorter. So a step can be repeated until it
fails, and the repetition ends.
-/
namespace StackLinker.Toml

/-- Takes a value off the front of a text, or nothing, and leaves a text that is not longer. -/
def Reader (α : Type) : Type :=
  (text : List Char) → Option (α × { rest : List Char // rest.length ≤ text.length })

/-- Takes a value off the front of a text and leaves a text that is shorter. -/
def Step (α : Type) : Type :=
  (text : List Char) → Option (α × { rest : List Char // rest.length < text.length })

/-! ## Sequences and choices -/

instance : Monad Reader where
  pure a := fun text => some (a, ⟨text, Nat.le_refl _⟩)
  bind x f := fun text =>
    match x text with
    | none => none
    | some (a, rest) =>
      match f a rest.1 with
      | none => none
      | some (b, rest') => some (b, ⟨rest'.1, Nat.le_trans rest'.2 rest.2⟩)

instance : Alternative Reader where
  failure := fun _ => none
  orElse x y := fun text =>
    match x text with
    | none => y () text
    | some result => some result

namespace Step

variable {α β : Type}

/-- A step as a reader. -/
def read (step : Step α) : Reader α := fun text =>
  (step text).map fun (a, rest) => (a, ⟨rest.1, Nat.le_of_lt rest.2⟩)

/-- A step, and after it a reader that depends on what the step took. -/
def andThen (step : Step α) (next : α → Reader β) : Step β := fun text =>
  match step text with
  | none => none
  | some (a, rest) =>
    match next a rest.1 with
    | none => none
    | some (b, rest') => some (b, ⟨rest'.1, Nat.lt_of_le_of_lt rest'.2 rest.2⟩)

/-- A step with its value changed; it fails where there is no changed value. -/
def filterMap (step : Step α) (f : α → Option β) : Step β := fun text =>
  match step text with
  | none => none
  | some (a, rest) => (f a).map fun b => (b, rest)

/-- A step with its value changed. -/
def map (step : Step α) (f : α → β) : Step β := step.filterMap fun a => some (f a)

instance : OrElse (Step α) where
  orElse x y := fun text =>
    match x text with
    | none => y () text
    | some result => some result

/-- A step, or nothing where it fails. -/
def optional (step : Step α) : Reader (Option α) := (step.map some).read <|> pure none

/-- The values of a step that is taken until it fails, and the text after them. -/
def manyFrom (step : Step α) (text : List Char) :
    List α × { rest : List Char // rest.length ≤ text.length } :=
  match step text with
  | none => ([], ⟨text, Nat.le_refl _⟩)
  | some (a, ⟨rest, shorter⟩) =>
    let (more, rest') := manyFrom step rest
    (a :: more, ⟨rest'.1, Nat.le_trans rest'.2 (Nat.le_of_lt shorter)⟩)
termination_by text.length

/-- A step that is taken until it fails. -/
def many (step : Step α) : Reader (List α) := fun text => some (manyFrom step text)

end Step

/-! ## Characters -/

/-- One character of a class. -/
def satisfy (p : Char → Bool) : Step Char
  | [] => none
  | c :: rest => if p c then some (c, ⟨rest, Nat.lt_succ_self _⟩) else none

/-- One given character. -/
def char (c : Char) : Step Unit := (satisfy (· == c)).map fun _ => ()

/-- The characters of a class at the front of the text. -/
def takeWhile (p : Char → Bool) : Reader (List Char) := fun text =>
  some (text.takeWhile p, ⟨text.dropWhile p, (List.dropWhile_suffix p).length_le⟩)

/-- One or more characters of a class. -/
def takeWhile1 (p : Char → Bool) : Step (List Char) :=
  (satisfy p).andThen fun c => (c :: ·) <$> takeWhile p

/-- A given number of characters of a class. -/
def exactly (p : Char → Bool) : Nat → Reader (List Char)
  | 0 => pure []
  | n + 1 => do
    let c ← (satisfy p).read
    let cs ← exactly p n
    return c :: cs

/-- The end of the text. -/
def atEnd : Reader Unit
  | [] => some ((), ⟨[], Nat.le_refl _⟩)
  | _ :: _ => none

/-! ## Blanks, comments and ends of lines -/

/-- Tells whether a character may stand in texts and comments: a tab, or no control character. -/
def isPlain (c : Char) : Bool := c == '\t' || (' ' ≤ c && c != '\x7f')

/-- Tells whether a character separates tokens on a line. -/
def isSpace (c : Char) : Bool := c == ' ' || c == '\t'

/-- Blanks between tokens on a line. -/
def spaces : Reader Unit := do
  let _ ← takeWhile isSpace

/-- The end of a line: a line feed, which may have a carriage return before it. -/
def newline : Step Unit := char '\n' <|> (char '\r').andThen fun _ => (char '\n').read

/-- A comment, up to the end of its line. -/
def comment : Step Unit := (char '#').andThen fun _ => do
  let _ ← takeWhile isPlain

/-- What may follow a statement on its line, with the end of the line or of the text. -/
def lineEnd : Reader Unit := do
  spaces
  let _ ← comment.optional
  newline.read <|> atEnd

/-- Blanks, comments and ends of lines between the items of an array. -/
def trivia : Reader Unit := do
  let blank : Step Unit := (takeWhile1 isSpace).map fun _ => ()
  let _ ← (blank <|> newline <|> comment.andThen fun _ => newline.read).many

end StackLinker.Toml
