/-
# Words

Storage offsets are signed and code addresses unsigned words of 64 bits. Both are added with a
check: `Offset.add?` and `Address.add?` give a sum exactly when the true sum fits the word.
-/
namespace StackLinker

/-! ## Storage offsets -/

/-- A storage offset. -/
abbrev Offset := Int64

/-- The offset with value `n`, if `n` fits. -/
def Offset.ofInt? (n : Int) : Option Offset :=
  if Int64.minValue.toInt ≤ n ∧ n ≤ Int64.maxValue.toInt then some (Int64.ofInt n) else none

/-- An integer has an offset exactly if some offset has it as its value. -/
theorem Offset.ofInt?_eq_some_iff {n : Int} {x : Offset} :
    Offset.ofInt? n = some x ↔ x.toInt = n := by
  unfold Offset.ofInt?
  constructor
  · intro h
    split at h
    · rename_i hn
      rw [Int64.toInt_minValue, Int64.toInt_maxValue] at hn
      rw [← Option.some.inj h, Int64.toInt_ofInt_of_le hn.1 (by omega)]
    · cases h
  · rintro rfl
    rw [if_pos ⟨Int64.minValue_le_toInt x, Int64.toInt_le x⟩, Int64.ofInt_toInt]

/-- The sum of two offsets, if it fits. -/
def Offset.add? (x y : Offset) : Option Offset :=
  Offset.ofInt? (x.toInt + y.toInt)

/-- A checked sum is the true sum. -/
theorem Offset.add?_eq_some_iff {x y z : Offset} :
    x.add? y = some z ↔ z.toInt = x.toInt + y.toInt :=
  Offset.ofInt?_eq_some_iff

/-- The offset that lies `size` storage units after `x`; a size too large for a signed word is
refused whatever `x` is. -/
def Offset.advance? (x : Offset) (size : UInt64) : Option Offset := do
  let length ← Offset.ofInt? size.toNat
  x.add? length

/-! ## Code addresses -/

/-- A code address, or a number of address units. -/
abbrev Address := UInt64

/-- The sum of two addresses, if it fits. -/
def Address.add? (x y : Address) : Option Address :=
  if x.toNat + y.toNat < UInt64.size then some (x + y) else none

/-- A checked sum is the true sum. -/
theorem Address.add?_eq_some_iff {x y z : Address} :
    x.add? y = some z ↔ z.toNat = x.toNat + y.toNat := by
  unfold Address.add?
  constructor
  · intro h
    split at h
    · rename_i hlt
      rw [← Option.some.inj h, UInt64.toNat_add, Nat.mod_eq_of_lt hlt]
    · cases h
  · intro h
    have hlt : x.toNat + y.toNat < UInt64.size := h ▸ z.toNat_lt
    rw [if_pos hlt]
    congr 1
    apply UInt64.toNat_inj.mp
    rw [UInt64.toNat_add, Nat.mod_eq_of_lt hlt, h]

end StackLinker
