/-
# Moments

Dates, times of day, and both together with or without an offset from universal time. Only the form
is read: no field of a description holds a moment.
-/
import StackLinker.Text.Numeral
import StackLinker.Toml.Reader

namespace StackLinker.Toml

/-- A number within bounds, of one digit and `more` digits after it. -/
def bounded (more low high : Nat) : Step Nat := (satisfy Char.isDigit).andThen fun c => do
  let cs ← exactly Char.isDigit more
  match Text.natural? 10 (c :: cs) with
  | some n => if low ≤ n ∧ n ≤ high then return n else failure
  | none => failure

/-- The number of days of a month. -/
def daysIn (year month : Nat) : Nat :=
  match month with
  | 2 => if year % 4 = 0 ∧ (year % 100 ≠ 0 ∨ year % 400 = 0) then 29 else 28
  | 4 | 6 | 9 | 11 => 30
  | _ => 31

/-- A date. -/
def date : Step Unit := (bounded 3 0 9999).andThen fun year => do
  (char '-').read
  let month ← (bounded 1 1 12).read
  (char '-').read
  let _ ← (bounded 1 1 (daysIn year month)).read

/-- An hour and a minute. -/
def clock : Step Unit := (bounded 1 0 23).andThen fun _ => do
  (char ':').read
  let _ ← (bounded 1 0 59).read

/-- A time of day; a second may be a leap second and may have a fraction. -/
def time : Step Unit := clock.andThen fun _ => do
  (char ':').read
  let _ ← (bounded 1 0 60).read
  let _ ← ((char '.').andThen fun _ => (takeWhile1 Char.isDigit).read).optional

/-- An offset from universal time. -/
def zone : Step Unit :=
  (satisfy fun c => c == 'Z' || c == 'z').map (fun _ => ()) <|>
    (satisfy fun c => c == '+' || c == '-').andThen fun _ => clock.read

/-- The time of day after a date. -/
def timeAfterDate : Step Unit :=
  (satisfy fun c => c == 'T' || c == 't' || c == ' ').andThen fun _ => do
    time.read
    let _ ← zone.optional

/-- A moment. -/
def moment : Step Unit :=
  (date.andThen fun _ => do
    let _ ← timeAfterDate.optional) <|> time

end StackLinker.Toml
