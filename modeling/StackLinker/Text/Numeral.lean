/-
# Numerals

Digits to numbers and back. A numeral is a sign, which may be missing, before one or more digits;
digits above nine are letters of either case. Written numerals have no plus sign and no zeros in
front.
-/
namespace StackLinker.Text

/-! ## Reading -/

/-- The value of a character as a digit in a base. -/
def digitValue? (base : Nat) (c : Char) : Option Nat :=
  let value :=
    if c.isDigit then c.toNat - '0'.toNat
    else if c.isLower then c.toNat - 'a'.toNat + 10
    else if c.isUpper then c.toNat - 'A'.toNat + 10
    else base
  if value < base then some value else none

/-- The value of digits in a base, the digits read so far having the value `start`. -/
def digitsValue? (base : Nat) : Nat → List Char → Option Nat
  | start, [] => some start
  | start, c :: rest => (digitValue? base c).bind fun d => digitsValue? base (start * base + d) rest

/-- The value of a numeral without a sign. -/
def natural? (base : Nat) : List Char → Option Nat
  | [] => none
  | c :: rest => digitsValue? base 0 (c :: rest)

/-- The value of a numeral that may have a sign. -/
def integer? (base : Nat) : List Char → Option Int
  | '-' :: digits => (natural? base digits).map fun n => -(n : Int)
  | '+' :: digits => (natural? base digits).map fun n => (n : Int)
  | digits => (natural? base digits).map fun n => (n : Int)

/-! ## Writing -/

/-- The decimal digits of an integer, after a minus sign if it is negative. -/
def decimalDigits : Int → List Char
  | .ofNat n => Nat.toDigits 10 n
  | .negSucc n => '-' :: Nat.toDigits 10 (n + 1)

/-- An integer in decimal. -/
def decimal (n : Int) : String := String.ofList (decimalDigits n)

/-- A number in hexadecimal with small letters, filled up with zeros in front to a least width. -/
def hexadecimal (width n : Nat) : String := String.ofList ((Nat.toDigits 16 n).leftpad width '0')

end StackLinker.Text
