/-
# Jump addresses

A jump carries its destination as four bytes, the highest first. Only addresses up to
`JumpAddress.highest` can be carried, so the first byte of what `JumpAddress.encode` gives is below
0x80.
-/
import StackLinker.Fault

namespace StackLinker

/-- Four bytes, the highest first. -/
structure JumpAddress where
  byte3 : UInt8
  byte2 : UInt8
  byte1 : UInt8
  byte0 : UInt8
  deriving DecidableEq

namespace JumpAddress

/-- The highest address that a jump can carry. -/
def highest : Nat := 0x7fffffff

/-- The number that the bytes stand for. -/
def toNat (a : JumpAddress) : Nat :=
  ((a.byte3.toNat * 256 + a.byte2.toNat) * 256 + a.byte1.toNat) * 256 + a.byte0.toNat

/-- The bytes of a number, less what goes beyond four bytes. -/
def ofNat (n : Nat) : JumpAddress where
  byte3 := UInt8.ofNat (n / 0x1000000)
  byte2 := UInt8.ofNat (n / 0x10000)
  byte1 := UInt8.ofNat (n / 0x100)
  byte0 := UInt8.ofNat n

/-- The bytes of an address that a jump can carry. -/
def encode (address : Address) : Except Fault JumpAddress :=
  if address.toNat ≤ highest then .ok (ofNat address.toNat) else .error (.addressOverflow address)

/-- The address that the bytes stand for. -/
def decode (a : JumpAddress) : Address := UInt64.ofNat a.toNat

/-- A jump address is shown as eight hexadecimal digits. -/
def render (a : JumpAddress) : String := "0x" ++ Text.hexadecimal 8 a.toNat

end JumpAddress

end StackLinker
