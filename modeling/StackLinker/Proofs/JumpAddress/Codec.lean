/-
# Jump addresses and their bytes

Addresses that a jump can carry and four bytes with a first byte below 0x80 are the same thing:
encoding and decoding undo each other between them, and what lies outside is refused.  Bytes are
compared like the addresses that they stand for, and shown as eight hexadecimal digits of their
value.
-/
import StackLinker.Payload
import StackLinker.Proofs.JumpAddress
import StackLinker.Proofs.Text.Numeral

namespace StackLinker.JumpAddress

/-- The bytes in order, the highest first. -/
def toList (a : JumpAddress) : List UInt8 := [a.byte3, a.byte2, a.byte1, a.byte0]

/-! ## Values -/

/-- Each byte is below 256. -/
theorem bytes_lt (a : JumpAddress) :
    a.byte3.toNat < 256 ∧ a.byte2.toNat < 256 ∧ a.byte1.toNat < 256 ∧ a.byte0.toNat < 256 :=
  ⟨a.byte3.toNat_lt, a.byte2.toNat_lt, a.byte1.toNat_lt, a.byte0.toNat_lt⟩

/-- Four bytes stand for a number below 2 ^ 32. -/
theorem toNat_lt (a : JumpAddress) : a.toNat < 16 ^ 8 := by
  obtain ⟨h3, h2, h1, h0⟩ := a.bytes_lt
  rw [toNat]
  omega

/-- Bytes are the bytes of the number that they stand for. -/
theorem ofNat_toNat (a : JumpAddress) : ofNat a.toNat = a := by
  obtain ⟨h3, h2, h1, h0⟩ := a.bytes_lt
  rw [ofNat, toNat]
  congr 1
  all_goals
    rw [← UInt8.toNat_inj, UInt8.toNat_ofNat']
    omega

/-- The address that bytes stand for is their number. -/
theorem toNat_decode (a : JumpAddress) : a.decode.toNat = a.toNat := by
  have h := a.toNat_lt
  rw [decode, UInt64.toNat_ofNat', Nat.mod_eq_of_lt (by omega)]

/-- Bytes stand for an address that a jump can carry exactly if the first is below 0x80. -/
theorem toNat_le_highest_iff (a : JumpAddress) : a.toNat ≤ highest ↔ a.byte3 < 0x80 := by
  obtain ⟨-, h2, h1, h0⟩ := a.bytes_lt
  have hbound : (0x80 : UInt8).toNat = 0x80 := rfl
  rw [UInt8.lt_iff_toNat_lt, hbound, toNat, highest]
  omega

/-- Bytes are compared like their numbers, the first byte that differs deciding. -/
theorem toList_lt_iff (a b : JumpAddress) : a.toList < b.toList ↔ a.toNat < b.toNat := by
  obtain ⟨h3, h2, h1, h0⟩ := a.bytes_lt
  obtain ⟨h3', h2', h1', h0'⟩ := b.bytes_lt
  simp only [toList, List.cons_lt_cons_iff, List.lt_irrefl, and_false, or_false,
    UInt8.lt_iff_toNat_lt, ← UInt8.toNat_inj]
  rw [toNat, toNat]
  omega

/-! ## Encoding -/

/-- The bytes of an encoded address stand for it. -/
theorem toNat_of_encode {address : Address} {bytes : JumpAddress} (h : encode address = .ok bytes) :
    bytes.toNat = address.toNat := by
  unfold encode at h
  split at h
  · rename_i hle
    rw [← Except.ok.inj h, ← toNat_decode, decode_ofNat hle]
  · cases h

/-- The address that bytes stand for is encoded as these bytes, or it is too high. -/
theorem encode_decode (bytes : JumpAddress) :
    encode bytes.decode =
      if bytes.byte3 < 0x80 then .ok bytes else .error (.addressOverflow bytes.decode) := by
  rw [encode, toNat_decode, ofNat_toNat]
  exact if_congr bytes.toNat_le_highest_iff rfl rfl

/-- **The codec.**  Exactly the addresses up to 2 ^ 31 - 1 are encoded, and decoded again.  Exactly
the bytes that begin below 0x80 are what their address is encoded as.  Encoded addresses are in the
order of their bytes, and bytes are shown as eight hexadecimal digits in small letters with the
value of their address. -/
theorem codec_exact :
    (∀ address : Address, if address.toNat ≤ 2 ^ 31 - 1
      then ∃ bytes, encode address = .ok bytes ∧ bytes.decode = address
      else encode address = .error (.addressOverflow address)) ∧
    (∀ bytes : JumpAddress, encode bytes.decode =
      if bytes.byte3 < 0x80 then .ok bytes else .error (.addressOverflow bytes.decode)) ∧
    (∀ (address address' : Address) (bytes bytes' : JumpAddress), encode address = .ok bytes →
      encode address' = .ok bytes' → (address < address' ↔ bytes.toList < bytes'.toList)) ∧
    ∀ bytes : JumpAddress, ∃ digits : List Char,
      (Literal.address bytes).render = "0x" ++ String.ofList digits ∧ digits.length = 8 ∧
      (∀ c ∈ digits, c ∈ Text.digitChars) ∧ Text.positional 16 digits = bytes.decode.toNat := by
  refine ⟨fun address => ?_, encode_decode, fun address address' bytes bytes' h h' => ?_,
    fun bytes => ?_⟩
  · split
    · rename_i hle
      exact ⟨_, if_pos hle, decode_ofNat hle⟩
    · rename_i hlt
      exact if_neg hlt
  · rw [toList_lt_iff, toNat_of_encode h, toNat_of_encode h', UInt64.lt_iff_toNat_lt]
  · obtain ⟨digits, hdigits, hlength, hsmall, hvalue⟩ :=
      Text.exists_hexadecimal_digits (by decide) bytes.toNat_lt
    refine ⟨digits, ?_, hlength, hsmall, hvalue.trans bytes.toNat_decode.symm⟩
    rw [← hdigits]
    rfl

/-- The last address that a jump can carry, and one below it that has a higher last byte. -/
theorem codec_exact_at_highest :
    encode 0x7fffff00 = .ok ⟨0x7f, 0xff, 0xff, 0x00⟩ ∧
      encode 0x7ffffeff = .ok ⟨0x7f, 0xff, 0xfe, 0xff⟩ ∧
      ([0x7f, 0xff, 0xfe, 0xff] : List UInt8) < [0x7f, 0xff, 0xff, 0x00] ∧
      ∃ bytes, encode 0x7fffffff = .ok bytes ∧ bytes.decode = 0x7fffffff := by
  have hhigh : encode 0x7fffff00 = .ok ⟨0x7f, 0xff, 0xff, 0x00⟩ := by decide
  have hlow : encode 0x7ffffeff = .ok ⟨0x7f, 0xff, 0xfe, 0xff⟩ := by decide
  obtain ⟨hencode, -, horder, -⟩ := codec_exact
  have hlast := hencode 0x7fffffff
  rw [if_pos (by decide)] at hlast
  exact ⟨hhigh, hlow, (horder 0x7ffffeff 0x7fffff00 _ _ hlow hhigh).mp (by decide), hlast⟩

end StackLinker.JumpAddress
