/-
# Reading jump addresses back

Four bytes hold every number below 2 ^ 32, so the bytes of an address that a jump can carry stand
for that address.
-/
import StackLinker.JumpAddress

namespace StackLinker.JumpAddress

/-- The bytes of a number stand for the number, less what goes beyond four bytes. -/
theorem toNat_ofNat (n : Nat) : (ofNat n).toNat = n % 0x100000000 := by
  rw [ofNat, toNat]
  simp only [UInt8.toNat_ofNat']
  omega

/-- An address that a jump can carry is read back from its bytes. -/
theorem decode_ofNat {address : Address} (h : address.toNat ≤ highest) :
    (ofNat address.toNat).decode = address := by
  have hlt : address.toNat < 0x100000000 := by
    rw [highest] at h
    omega
  rw [decode, toNat_ofNat, Nat.mod_eq_of_lt hlt, UInt64.ofNat_toNat]

end StackLinker.JumpAddress
