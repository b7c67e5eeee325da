/-
# Sums that fit

A checked sum of offsets is there exactly if the true sum lies in the range of offsets.
-/
import StackLinker.Word

namespace StackLinker.Offset

/-- Tells that an integer lies in the range of offsets. -/
def Fits (n : Int) : Prop := Int64.minValue.toInt ≤ n ∧ n ≤ Int64.maxValue.toInt

instance (n : Int) : Decidable (Fits n) := inferInstanceAs (Decidable (_ ∧ _))

/-- The value of an offset fits. -/
theorem fits_toInt (x : Offset) : Fits x.toInt := ⟨Int64.minValue_le_toInt x, Int64.toInt_le x⟩

/-- The integers that fit are the values of offsets. -/
theorem exists_ofInt?_iff {n : Int} : (∃ x, ofInt? n = some x) ↔ Fits n := by
  constructor
  · rintro ⟨x, hx⟩
    rw [← ofInt?_eq_some_iff.mp hx]
    exact fits_toInt x
  · intro h
    exact ⟨_, if_pos h⟩

/-- There is a checked sum exactly if the true sum fits. -/
theorem exists_add?_iff {x y : Offset} : (∃ z, x.add? y = some z) ↔ Fits (x.toInt + y.toInt) :=
  exists_ofInt?_iff

/-- A checked sum with a size of storage is the true sum. -/
theorem advance?_eq_some_iff {x y : Offset} {size : UInt64} :
    x.advance? size = some y ↔
      (size.toNat : Int) ≤ Int64.maxValue.toInt ∧ y.toInt = x.toInt + size.toNat := by
  unfold advance?
  simp only [Option.bind_eq_bind, Option.bind_eq_some_iff, ofInt?_eq_some_iff, add?_eq_some_iff]
  constructor
  · rintro ⟨length, hlength, hy⟩
    rw [hlength] at hy
    rw [← hlength]
    exact ⟨Int64.toInt_le length, hlength ▸ hy⟩
  · rintro ⟨hsize, hy⟩
    obtain ⟨length, hlength⟩ := exists_ofInt?_iff.mpr (⟨by simp, hsize⟩ : Fits size.toNat)
    rw [ofInt?_eq_some_iff] at hlength
    exact ⟨length, hlength, hlength ▸ hy⟩

/-- There is an offset behind some storage exactly if neither the size of the storage nor the sum is
too large. -/
theorem exists_advance?_iff {x : Offset} {size : UInt64} :
    (∃ y, x.advance? size = some y) ↔ (size.toNat : Int) ≤ Int64.maxValue.toInt ∧
      x.toInt + size.toNat ≤ Int64.maxValue.toInt := by
  have hx := (fits_toInt x).1
  simp only [advance?_eq_some_iff, exists_and_left]
  refine and_congr_right fun _ => ?_
  rw [← exists_congr fun y => ofInt?_eq_some_iff (n := x.toInt + size.toNat), exists_ofInt?_iff]
  exact ⟨fun h => h.2, fun h => ⟨by omega, h⟩⟩

end StackLinker.Offset
