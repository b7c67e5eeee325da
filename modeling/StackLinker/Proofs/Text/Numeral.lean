/-
# What numerals are read and written

A numeral is one or more digits, and its value is their positional value.  Reading accepts the
numerals, with or without a sign, and gives their values; nothing else is accepted.  Writing gives
one spelling for each integer: no plus sign, no zeros in front, and a minus sign only before what is
not zero.
-/
import StackLinker.Text.Numeral
import StackLinker.Word
import Mathlib.Data.Nat.Digits.Lemmas

namespace StackLinker.Text

/-! ## Digits -/

/-- The digits in the order of their values. -/
def digitChars : List Char := "0123456789abcdef".toList

/-- The value of a digit, which may be a letter of either case; 16 for what is no digit. -/
def digitOf (c : Char) : Nat := digitChars.idxOf c.toLower

/-- A character beyond ASCII is no digit. -/
theorem digitOf_of_le {c : Char} (h : 128 ≤ c.toNat) : digitOf c = 16 := by
  have hupper : ¬ (c.val ≥ 'A'.val ∧ c.val ≤ 'Z'.val) := by
    rintro ⟨-, hle⟩
    have : c.toNat ≤ 90 := UInt32.le_iff_toNat_le.mp hle
    omega
  have hlower : c.toLower = c := dif_neg hupper
  have hnot : c ∉ digitChars := by
    intro hmem
    have hascii : digitChars.all (fun d => d.toNat < 128) = true := by decide
    have := of_decide_eq_true (List.all_eq_true.mp hascii c hmem)
    omega
  rw [digitOf, hlower, List.idxOf_eq_length hnot]
  rfl

/-- What holds of all ASCII characters holds of a character that is one. -/
theorem forall_ascii {p : Char → Prop} (h : ∀ n < 128, p (Char.ofNat n)) {c : Char}
    (hc : c.toNat < 128) : p c := by
  have hp := h c.toNat hc
  rwa [Char.ofNat_toNat] at hp

/-- What holds of all digits in ASCII holds of every digit. -/
theorem forall_digit {base : Nat} (hbase : base ≤ 16) {p : Char → Prop}
    (h : ∀ n < 128, digitOf (Char.ofNat n) < base → p (Char.ofNat n)) {c : Char}
    (hc : digitOf c < base) : p c := by
  by_cases hascii : c.toNat < 128
  · exact forall_ascii (p := fun c => digitOf c < base → p c) h hascii hc
  · rw [digitOf_of_le (by omega)] at hc
    omega

/-- A character is read as a digit of a base exactly if it is one, with its value. -/
theorem digitValue?_eq {base : Nat} (hbase : base ≤ 16) (c : Char) :
    digitValue? base c = if digitOf c < base then some (digitOf c) else none := by
  by_cases hascii : c.toNat < 128
  · have hall : ∀ n < 128, ∀ base < 17, digitValue? base (Char.ofNat n) =
        if digitOf (Char.ofNat n) < base then some (digitOf (Char.ofNat n)) else none := by
      decide +kernel
    exact forall_ascii (p := fun c => ∀ base < 17, digitValue? base c =
      if digitOf c < base then some (digitOf c) else none) hall hascii base (by omega)
  · have hbeyond : ∀ last : Char, last.toNat < 128 → decide (c.val ≤ last.val) = false := by
      intro last hlast
      refine decide_eq_false fun hle => ?_
      have : c.toNat ≤ last.toNat := UInt32.le_iff_toNat_le.mp hle
      omega
    have hdigit : c.isDigit = false := by
      show (_ && decide (c.val ≤ '9'.val)) = false
      rw [hbeyond '9' (by decide), Bool.and_false]
    have hlower : c.isLower = false := by
      show (_ && decide (c.val ≤ 'z'.val)) = false
      rw [hbeyond 'z' (by decide), Bool.and_false]
    have hupper : c.isUpper = false :=
      decide_eq_false fun h => of_decide_eq_false (hbeyond 'Z' (by decide)) h.2
    have hvalue : ¬ digitOf c < base := by
      rw [digitOf_of_le (by omega)]
      omega
    rw [if_neg hvalue]
    simp [digitValue?, hdigit, hlower, hupper]

/-- A digit below sixteen is written as the character that has its value. -/
theorem digitOf_digitChar {d : Nat} (h : d < 16) : digitOf d.digitChar = d := by
  have hall : ∀ d < 16, digitOf d.digitChar = d := by decide
  exact hall d h

/-- A digit below sixteen is written with a small letter. -/
theorem digitChar_mem {d : Nat} (h : d < 16) : d.digitChar ∈ digitChars := by
  have hall : ∀ d < 16, d.digitChar ∈ digitChars := by decide
  exact hall d h

/-- A decimal digit has one spelling. -/
theorem digitChar_digitOf {c : Char} (h : digitOf c < 10) : (digitOf c).digitChar = c := by
  have hall : ∀ n < 128, digitOf (Char.ofNat n) < 10 →
      (digitOf (Char.ofNat n)).digitChar = Char.ofNat n := by decide +kernel
  exact forall_digit (p := fun c => (digitOf c).digitChar = c) (by decide) hall h

/-! ## Positional values -/

/-- The value of digits in a base, the highest first. -/
def positional (base : Nat) (cs : List Char) : Nat := Nat.ofDigits base (cs.map digitOf).reverse

/-- More digits behind move the first ones up. -/
theorem positional_append (base : Nat) (cs ds : List Char) :
    positional base (cs ++ ds) = positional base cs * base ^ ds.length + positional base ds := by
  rw [positional, List.map_append, List.reverse_append, Nat.ofDigits_append, List.length_reverse,
    List.length_map, positional, positional]
  ring

/-- A single digit has its own value. -/
theorem positional_singleton (base : Nat) (c : Char) : positional base [c] = digitOf c := by
  simp [positional]

/-- The first digit counts a power of the base. -/
theorem positional_cons (base : Nat) (c : Char) (cs : List Char) :
    positional base (c :: cs) = digitOf c * base ^ cs.length + positional base cs := by
  rw [← List.singleton_append, positional_append, positional_singleton]

/-- Zeros in front add nothing. -/
theorem positional_replicate_append (base count : Nat) (cs : List Char) :
    positional base (List.replicate count '0' ++ cs) = positional base cs := by
  induction count with
  | zero => rfl
  | succ count ih =>
    have hzero : digitOf '0' = 0 := by decide
    rw [List.replicate_succ, List.cons_append, positional_cons, hzero, ih]
    omega

/-! ## Numerals -/

/-- Tells that characters are a numeral in a base: one or more digits. -/
def IsNumeral (base : Nat) (cs : List Char) : Prop := cs ≠ [] ∧ ∀ c ∈ cs, digitOf c < base

-- The test goes through the list; there is also an instance that would go through all characters.
instance (base : Nat) (cs : List Char) : Decidable (IsNumeral base cs) :=
  @instDecidableAnd _ _ inferInstance (List.decidableBAll _ cs)

/-- Tells which integer characters spell in a base: a numeral, which may have a sign in front. -/
inductive IsSigned (base : Nat) : List Char → Int → Prop
  | plain {cs : List Char} (h : IsNumeral base cs) : IsSigned base cs (positional base cs)
  | plus {cs : List Char} (h : IsNumeral base cs) : IsSigned base ('+' :: cs) (positional base cs)
  | minus {cs : List Char} (h : IsNumeral base cs) :
    IsSigned base ('-' :: cs) (-(positional base cs : Int))

/-- Tells which integer characters spell in canonical decimal: zero, or a numeral without a zero in
front, which may have a minus sign. -/
inductive IsCanonical : List Char → Int → Prop
  | zero : IsCanonical ['0'] 0
  | positive {c : Char} {cs : List Char} (hc : c ≠ '0') (h : IsNumeral 10 (c :: cs)) :
    IsCanonical (c :: cs) (positional 10 (c :: cs))
  | negative {c : Char} {cs : List Char} (hc : c ≠ '0') (h : IsNumeral 10 (c :: cs)) :
    IsCanonical ('-' :: c :: cs) (-(positional 10 (c :: cs) : Int))

/-- A sign is no digit. -/
theorem IsNumeral.not_sign {base : Nat} (hbase : base ≤ 16) {c : Char} {cs : List Char}
    (h : IsNumeral base (c :: cs)) : c ≠ '-' ∧ c ≠ '+' := by
  have hdigit := h.2 c List.mem_cons_self
  have hminus : digitOf '-' = 16 := by decide
  have hplus : digitOf '+' = 16 := by decide
  constructor
  · rintro rfl
    omega
  · rintro rfl
    omega

/-- Characters that spell an integer are digits and signs. -/
theorem IsSigned.digit_or_sign {base : Nat} {cs : List Char} {z : Int} (h : IsSigned base cs z) :
    ∀ c ∈ cs, digitOf c < base ∨ c = '-' ∨ c = '+' := by
  cases h with
  | plain h => exact fun c hc => .inl (h.2 c hc)
  | plus h => exact List.forall_mem_cons.mpr ⟨.inr (.inr rfl), fun c hc => .inl (h.2 c hc)⟩
  | minus h => exact List.forall_mem_cons.mpr ⟨.inr (.inl rfl), fun c hc => .inl (h.2 c hc)⟩

/-! ## Reading -/

section Reading

variable {base : Nat} (hbase : base ≤ 16)

include hbase

/-- Digits are read from the left, and give their positional value behind what has been read
before. -/
theorem digitsValue?_eq_some_iff {start n : Nat} {cs : List Char} :
    digitsValue? base start cs = some n ↔
      (∀ c ∈ cs, digitOf c < base) ∧ start * base ^ cs.length + positional base cs = n := by
  induction cs generalizing start with
  | nil => simp [digitsValue?, positional]
  | cons c cs ih =>
    rw [digitsValue?, digitValue?_eq hbase, List.forall_mem_cons]
    by_cases hc : digitOf c < base
    · have hvalue : (start * base + digitOf c) * base ^ cs.length + positional base cs =
          start * base ^ (c :: cs).length + positional base (c :: cs) := by
        rw [positional_cons, List.length_cons]
        ring
      rw [if_pos hc, Option.bind_some, ih, hvalue, and_iff_right hc]
    · rw [if_neg hc, Option.bind_none]
      exact ⟨nofun, fun h => absurd h.1.1 hc⟩

/-- The numerals are read, each with its positional value. -/
theorem natural?_eq_some_iff {cs : List Char} {n : Nat} :
    natural? base cs = some n ↔ IsNumeral base cs ∧ positional base cs = n := by
  cases cs with
  | nil => exact ⟨nofun, fun h => absurd rfl h.1.1⟩
  | cons c cs =>
    rw [natural?, digitsValue?_eq_some_iff hbase, Nat.zero_mul, Nat.zero_add, IsNumeral,
      and_iff_right (List.cons_ne_nil c cs)]

/-- What is made of the integer that is read for a numeral. -/
theorem map_natural?_eq_some_iff {cs : List Char} {f : Int → Int} {z : Int} :
    Option.map f (do return (← natural? base cs : Int)) = some z ↔
      IsNumeral base cs ∧ f (positional base cs) = z := by
  simp only [Option.map_eq_some_iff, Option.bind_eq_bind, Option.bind_eq_some_iff, Option.pure_def,
    Option.some.injEq, natural?_eq_some_iff hbase]
  constructor
  · rintro ⟨_, ⟨n, ⟨hnumeral, rfl⟩, rfl⟩, rfl⟩
    exact ⟨hnumeral, rfl⟩
  · rintro ⟨hnumeral, rfl⟩
    exact ⟨_, ⟨_, ⟨hnumeral, rfl⟩, rfl⟩, rfl⟩

/-- **Reading.**  An integer is read for characters exactly if they spell it, with a sign or
without. -/
theorem integer?_eq_some_iff {cs : List Char} {z : Int} :
    integer? base cs = some z ↔ IsSigned base cs z := by
  constructor
  · intro h
    unfold integer? at h
    split at h
    all_goals obtain ⟨hnumeral, rfl⟩ := (map_natural?_eq_some_iff hbase).mp h
    · exact .minus hnumeral
    · exact .plus hnumeral
    · exact .plain hnumeral
  · intro h
    cases h with
    | plain hnumeral =>
      unfold integer?
      split
      · exact absurd rfl (hnumeral.not_sign hbase).1
      · exact absurd rfl (hnumeral.not_sign hbase).2
      · exact (map_natural?_eq_some_iff hbase).mpr ⟨hnumeral, rfl⟩
    | plus hnumeral => exact (map_natural?_eq_some_iff hbase).mpr ⟨hnumeral, rfl⟩
    | minus hnumeral => exact (map_natural?_eq_some_iff hbase).mpr ⟨hnumeral, rfl⟩

/-- An offset is read for characters exactly if they spell it. -/
theorem bind_ofInt?_eq_some_iff {cs : List Char} {n : Offset} :
    (integer? base cs).bind Offset.ofInt? = some n ↔ IsSigned base cs n.toInt := by
  rw [Option.bind_eq_some_iff, ← integer?_eq_some_iff hbase]
  simp only [Offset.ofInt?_eq_some_iff]
  constructor
  · rintro ⟨z, hz, rfl⟩
    exact hz
  · intro h
    exact ⟨n.toInt, h, rfl⟩

end Reading

/-! ## Writing -/

section Writing

variable {base : Nat} (hbase : 1 < base) (hsixteen : base ≤ 16)

include hbase hsixteen

/-- The digits that are written for a number are digits of the base, with small letters. -/
theorem mem_toDigits (n : Nat) {c : Char} (hc : c ∈ Nat.toDigits base n) :
    c ∈ digitChars ∧ digitOf c < base := by
  induction n using Nat.strong_induction_on with
  | _ n ih =>
    rw [Nat.toDigits_eq_if hbase] at hc
    split at hc
    · rename_i hlt
      rw [List.mem_singleton.mp hc, digitOf_digitChar (by omega)]
      exact ⟨digitChar_mem (by omega), hlt⟩
    · rename_i hle
      rcases List.mem_append.mp hc with hfirst | hlast
      · exact ih (n / base) (Nat.div_lt_self (by omega) hbase) hfirst
      · have hmod := Nat.mod_lt n (show 0 < base by omega)
        rw [List.mem_singleton.mp hlast, digitOf_digitChar (by omega)]
        exact ⟨digitChar_mem (by omega), hmod⟩

/-- The digits that are written for a number have it as their value. -/
theorem positional_toDigits (n : Nat) : positional base (Nat.toDigits base n) = n := by
  induction n using Nat.strong_induction_on with
  | _ n ih =>
    rw [Nat.toDigits_eq_if hbase]
    split
    · rename_i hlt
      rw [positional_singleton, digitOf_digitChar (by omega)]
    · rename_i hle
      have hmod := Nat.mod_lt n (show 0 < base by omega)
      rw [positional_append, ih (n / base) (Nat.div_lt_self (by omega) hbase), positional_singleton,
        digitOf_digitChar (by omega), List.length_singleton, pow_one, Nat.div_add_mod']

/-- What is written for a number is a numeral. -/
theorem isNumeral_toDigits (n : Nat) : IsNumeral base (Nat.toDigits base n) :=
  ⟨Nat.toDigits_ne_nil, fun _ hc => (mem_toDigits hbase hsixteen n hc).2⟩

end Writing

/-- A number that fits a width in hexadecimal is written with as many digits as the width, in small
letters. -/
theorem exists_hexadecimal_digits {width n : Nat} (hwidth : 0 < width) (h : n < 16 ^ width) :
    ∃ digits, hexadecimal width n = String.ofList digits ∧ digits.length = width ∧
      (∀ c ∈ digits, c ∈ digitChars) ∧ positional 16 digits = n := by
  have hlength := (Nat.length_toDigits_le_iff (by decide) hwidth).mpr h
  refine ⟨(Nat.toDigits 16 n).leftpad width '0', rfl, ?_, ?_, ?_⟩
  · rw [List.leftpad, List.length_append, List.length_replicate]
    omega
  · intro c hc
    rcases List.mem_append.mp hc with hzero | hdigit
    · rw [List.eq_of_mem_replicate hzero]
      decide
    · exact (mem_toDigits (by decide) (by decide) n hdigit).1
  · rw [List.leftpad, positional_replicate_append, positional_toDigits (by decide) (by decide)]

/-- No zero is written in front of a number that is not zero. -/
theorem exists_toDigits_of_pos {n : Nat} (h : 0 < n) :
    ∃ c cs, Nat.toDigits 10 n = c :: cs ∧ c ≠ '0' := by
  induction n using Nat.strong_induction_on with
  | _ n ih =>
    rw [Nat.toDigits_eq_if (by decide)]
    split
    · rename_i hlt
      refine ⟨n.digitChar, [], rfl, fun hzero => ?_⟩
      have hvalue := digitOf_digitChar (show n < 16 by omega)
      rw [hzero] at hvalue
      have : digitOf '0' = 0 := by decide
      omega
    · rename_i hle
      obtain ⟨c, cs, hcs, hc⟩ := ih (n / 10) (by omega) (by omega)
      exact ⟨c, cs ++ [(n % 10).digitChar], by rw [hcs, List.cons_append], hc⟩

/-- Digits behind a number that is not zero are what is written behind it. -/
theorem toDigits_append {n : Nat} (hn : 0 < n) {cs : List Char} (h : ∀ c ∈ cs, digitOf c < 10) :
    Nat.toDigits 10 n ++ cs = Nat.toDigits 10 (n * 10 ^ cs.length + positional 10 cs) := by
  induction cs generalizing n with
  | nil => simp [positional]
  | cons c cs ih =>
    obtain ⟨hc, hcs⟩ := List.forall_mem_cons.mp h
    have hnext : Nat.toDigits 10 n ++ [c] = Nat.toDigits 10 (10 * n + digitOf c) := by
      rw [← Nat.toDigits_append_toDigits (by decide) hn hc, Nat.toDigits_of_lt_base hc,
        digitChar_digitOf hc]
    calc Nat.toDigits 10 n ++ c :: cs
      _ = Nat.toDigits 10 (10 * n + digitOf c) ++ cs := by rw [← hnext, List.append_assoc]; rfl
      _ = Nat.toDigits 10 ((10 * n + digitOf c) * 10 ^ cs.length + positional 10 cs) :=
        ih (by omega) hcs
      _ = Nat.toDigits 10 (n * 10 ^ (c :: cs).length + positional 10 (c :: cs)) := by
        rw [positional_cons, List.length_cons]
        congr 1
        ring

/-- A decimal digit other than zero has a value above zero. -/
theorem digitOf_pos {c : Char} (hc : c ≠ '0') (h : digitOf c < 10) : 0 < digitOf c := by
  by_contra hzero
  apply hc
  rw [← digitChar_digitOf h, show digitOf c = 0 by omega]
  rfl

/-- A numeral without a zero in front is what is written for its value, and that is not zero. -/
theorem toDigits_positional {c : Char} {cs : List Char} (hc : c ≠ '0')
    (h : IsNumeral 10 (c :: cs)) :
    Nat.toDigits 10 (positional 10 (c :: cs)) = c :: cs ∧ 0 < positional 10 (c :: cs) := by
  obtain ⟨hfirst, hrest⟩ := List.forall_mem_cons.mp h.2
  have hpos := digitOf_pos hc hfirst
  have hwritten := toDigits_append hpos hrest
  rw [Nat.toDigits_of_lt_base hfirst, digitChar_digitOf hfirst, ← positional_cons] at hwritten
  refine ⟨hwritten.symm, ?_⟩
  rw [positional_cons]
  have := Nat.mul_pos hpos (Nat.pow_pos (show 0 < 10 by decide) (n := cs.length))
  omega

/-- **Writing.**  Canonical decimal is what is written, one spelling for each integer. -/
theorem isCanonical_iff {cs : List Char} {z : Int} : IsCanonical cs z ↔ cs = decimalDigits z := by
  constructor
  · intro h
    cases h with
    | zero => rfl
    | positive hc h => exact (toDigits_positional hc h).1.symm
    | @negative c cs hc h =>
      obtain ⟨hwritten, hpos⟩ := toDigits_positional hc h
      obtain ⟨n, hn⟩ := Nat.exists_eq_add_one_of_ne_zero hpos.ne'
      rw [hn] at hwritten ⊢
      show _ = '-' :: Nat.toDigits 10 (n + 1)
      rw [hwritten]
  · rintro rfl
    have hcanonical : ∀ n : Nat, ∃ c cs, Nat.toDigits 10 (n + 1) = c :: cs ∧ c ≠ '0' ∧
        IsNumeral 10 (c :: cs) ∧ positional 10 (c :: cs) = n + 1 := by
      intro n
      obtain ⟨c, cs, hcs, hc⟩ := exists_toDigits_of_pos (Nat.succ_pos n)
      refine ⟨c, cs, hcs, hc, ?_, ?_⟩
      · rw [← hcs]
        exact isNumeral_toDigits (by decide) (by decide) (n + 1)
      · rw [← hcs]
        exact positional_toDigits (by decide) (by decide) (n + 1)
    match z with
    | .ofNat 0 => exact .zero
    | .ofNat (n + 1) =>
      obtain ⟨c, cs, hcs, hc, hnumeral, hvalue⟩ := hcanonical n
      have hpositive := IsCanonical.positive hc hnumeral
      rwa [hvalue, ← hcs] at hpositive
    | .negSucc n =>
      obtain ⟨c, cs, hcs, hc, hnumeral, hvalue⟩ := hcanonical n
      have hnegative := IsCanonical.negative hc hnumeral
      rwa [hvalue, ← hcs] at hnegative

/-- Canonical decimal is spelled with a sign or without. -/
theorem IsCanonical.isSigned {cs : List Char} {z : Int} (h : IsCanonical cs z) :
    IsSigned 10 cs z := by
  cases h with
  | zero => exact @IsSigned.plain 10 ['0'] (by decide)
  | positive hc h => exact .plain h
  | negative hc h => exact .minus h

/-- The characters of an integer in decimal are its digits and its sign. -/
theorem toList_decimal (z : Int) : (decimal z).toList = decimalDigits z := String.toList_ofList

/-- An integer that is written in decimal is spelled. -/
theorem isSigned_decimalDigits (z : Int) : IsSigned 10 (decimalDigits z) z :=
  (isCanonical_iff.mpr rfl).isSigned

end StackLinker.Text
