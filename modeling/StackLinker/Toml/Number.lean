/-
# Numbers

Integers in four bases and numbers with a fraction or an exponent. An underscore may stand between
two digits.
-/
import StackLinker.Text.Numeral
import StackLinker.Toml.Reader
import StackLinker.Word

namespace StackLinker.Toml

/-! ## Digits -/

/-- Digits of a class after a first one, with underscores between them left out. -/
def digitsAfter (p : Char → Bool) (first : Char) : Reader (List Char) := do
  let more ← (satisfy p <|> (char '_').andThen fun _ => (satisfy p).read).many
  return first :: more

/-- One or more digits of a class. -/
def digits (p : Char → Bool) : Step (List Char) := (satisfy p).andThen (digitsAfter p)

/-- The digits of a decimal integer: a zero stands alone. -/
def plainDigits : Step (List Char) :=
  (char '0').map (fun _ => ['0']) <|>
    (satisfy fun c => c.isDigit && c != '0').andThen (digitsAfter Char.isDigit)

/-- Something that may have a sign before it, with the answer whether it is negative. -/
def signed {α : Type} (step : Step α) : Step (Bool × α) :=
  ((char '-').andThen fun _ => (step.map fun a => (true, a)).read) <|>
    ((char '+').andThen fun _ => (step.map fun a => (false, a)).read) <|>
    step.map fun a => (false, a)

/-! ## Integers -/

/-- A decimal integer. -/
def decimalInteger : Step Offset :=
  (signed plainDigits).filterMap fun (negative, cs) => do
    let n ← Text.natural? 10 cs
    Offset.ofInt? (if negative then -(n : Int) else n)

/-- An integer in a base that a letter after a zero tells. -/
def basedInteger (letter : Char) (base : Nat) : Step Offset :=
  (char '0').andThen fun _ => do
    (char letter).read
    let cs ← (digits fun c => (Text.digitValue? base c).isSome).read
    match (Text.natural? base cs).bind fun n => Offset.ofInt? n with
    | some n => return n
    | none => failure

/-- An integer. -/
def integer : Step Offset :=
  basedInteger 'x' 16 <|> basedInteger 'o' 8 <|> basedInteger 'b' 2 <|> decimalInteger

/-! ## Numbers with a fraction or an exponent -/

/-- Tells whether `mantissa * 10 ^ exponent` rounds beyond the largest number of double precision.
A number of that size has between 309 and 310 digits before the point. -/
def overflows (mantissa : Nat) (exponent : Int) : Bool :=
  let size := (Nat.toDigits 10 mantissa).length + exponent
  if mantissa = 0 ∨ size < 309 then false
  else if 310 < size then true
  else
    let limit := Nat.pow 2 1024 - Nat.pow 2 970
    if 0 ≤ exponent then limit ≤ mantissa * Nat.pow 10 exponent.toNat
    else limit * Nat.pow 10 (-exponent).toNat ≤ mantissa

/-- The value of an exponent. -/
def exponent : Step Int :=
  (satisfy fun c => c == 'e' || c == 'E').andThen fun _ => do
    let (negative, cs) ← (signed (digits Char.isDigit)).read
    match Text.natural? 10 cs with
    | some n => return if negative then -(n : Int) else n
    | none => failure

/-- The digits after a point. -/
def fraction : Step (List Char) := (char '.').andThen fun _ => (digits Char.isDigit).read

/-- What makes a number more than an integer: a fraction, an exponent or both. -/
def tail : Step (List Char × Int) :=
  (fraction.andThen fun cs => do return (cs, (← exponent.optional).getD 0)) <|>
    exponent.map fun e => ([], e)

/-- A number with a fraction or an exponent.  Only its form is read: no field of a description holds
such a number.  One that is too large is refused unless it is negative. -/
def decimalFraction : Step Unit :=
  (signed plainDigits).andThen fun (negative, whole) => do
    let (part, e) ← tail.read
    match Text.natural? 10 (whole ++ part) with
    | some mantissa =>
      if !negative && overflows mantissa (e - part.length) then failure else return ()
    | none => failure

/-- Infinity, or what is no number. -/
def specialNumber : Step Unit :=
  (signed (takeWhile1 Char.isLower)).filterMap fun (_, word) =>
    if word = "inf".toList ∨ word = "nan".toList then some () else none

end StackLinker.Toml
