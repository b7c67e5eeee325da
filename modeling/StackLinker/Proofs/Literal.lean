/-
# Numbers and texts

A text becomes a number only if it is how that number is written, so no text is changed by being
read.  Where only the value counts, a text stands for the number that it spells between blanks, with
a sign or without and with any zeros in front.
-/
import StackLinker.Payload
import StackLinker.Proofs.Text.Blank
import StackLinker.Proofs.Text.Numeral

namespace StackLinker

namespace Literal

/-- Characters are read as an offset exactly if they spell it in decimal. -/
theorem offset?_eq_some_iff {cs : List Char} {n : Offset} :
    offset? cs = some n ↔ Text.IsSigned 10 cs n.toInt :=
  Text.bind_ofInt?_eq_some_iff (by decide)

/-- An offset is read from how it is written. -/
theorem offset?_decimalDigits (n : Offset) : offset? (Text.decimalDigits n.toInt) = some n :=
  offset?_eq_some_iff.mpr (Text.isSigned_decimalDigits n.toInt)

/-! ## Canonical numbers -/

/-- A text is how a number is written exactly if it spells the number in canonical decimal. -/
theorem decimal_eq_iff {n : Offset} {s : String} :
    Text.decimal n.toInt = s ↔ Text.IsCanonical s.toList n.toInt := by
  rw [Text.isCanonical_iff, Text.decimal, ← String.toList_inj, String.toList_ofList]
  exact eq_comm

/-- A text becomes a number exactly if it spells the number in canonical decimal. -/
theorem ofText_eq_number_iff {s : String} {n : Offset} :
    ofText s = .number n ↔ Text.IsCanonical s.toList n.toInt := by
  constructor
  · intro h
    unfold ofText at h
    split at h
    · rename_i value _
      split at h
      · rename_i hwritten
        cases h
        exact decimal_eq_iff.mp hwritten
      · cases h
    · cases h
  · intro h
    have hread := offset?_eq_some_iff.mpr h.isSigned
    simp only [ofText, hread, if_pos (decimal_eq_iff.mpr h)]

/-- A text becomes a number, or it stays. -/
theorem ofText_eq_number_or_text (s : String) :
    (∃ n, ofText s = .number n) ∨ ofText s = .text s := by
  unfold ofText
  split
  · split
    · exact .inl ⟨_, rfl⟩
    · exact .inr rfl
  · exact .inr rfl

/-- A text stays exactly if it spells no offset in canonical decimal. -/
theorem ofText_eq_text_iff {s : String} :
    ofText s = .text s ↔ ¬ ∃ n : Offset, Text.IsCanonical s.toList n.toInt := by
  constructor
  · rintro h ⟨n, hn⟩
    rw [ofText_eq_number_iff.mpr hn] at h
    cases h
  · intro h
    rcases ofText_eq_number_or_text s with ⟨n, hn⟩ | htext
    · exact absurd ⟨n, ofText_eq_number_iff.mp hn⟩ h
    · exact htext

/-- The literal for a text is shown as that text. -/
theorem render_ofText (s : String) : (ofText s).render = s := by
  rcases ofText_eq_number_or_text s with ⟨n, hn⟩ | htext
  · rw [hn]
    exact decimal_eq_iff.mpr (ofText_eq_number_iff.mp hn)
  · rw [htext]
    rfl

/-- **Literals for texts.**  No text is changed by being made a payload, so different texts give
different payloads.  It becomes a number exactly if it spells an offset in canonical decimal, and
stays a text otherwise; and each number comes back from how it is written. -/
theorem ofText_lossless :
    (∀ s, (Payload.literal (ofText s)).render = s) ∧
    Function.Injective (fun s => Payload.literal (ofText s)) ∧
    (∀ s n, ofText s = .number n ↔ Text.IsCanonical s.toList n.toInt) ∧
    (∀ s, ofText s = .text s ↔ ¬ ∃ n : Offset, Text.IsCanonical s.toList n.toInt) ∧
    ∀ n, ofText (number n).render = .number n := by
  refine ⟨render_ofText, fun s s' h => ?_, fun _ _ => ofText_eq_number_iff,
    fun _ => ofText_eq_text_iff, fun n => ?_⟩
  · have hrendered := congrArg Payload.render h
    exact (render_ofText s).symm.trans (hrendered.trans (render_ofText s'))
  · exact ofText_eq_number_iff.mpr (decimal_eq_iff.mp rfl)

example : ["+5", "007", "-0", " 12", "1 ", "٣", "", "-", "9223372036854775808"].map ofText =
    ["+5", "007", "-0", " 12", "1 ", "٣", "", "-", "9223372036854775808"].map text := by
  decide +kernel

example : ["0", "-3", "9223372036854775807", "-9223372036854775808"].map ofText =
    [0, -3, Int64.maxValue, Int64.minValue].map number := by
  decide +kernel

end Literal

/-! ## Numbers between blanks -/

/-- Tells which integer a text spells: a decimal numeral, which may have a sign in front, between
blanks. -/
def Text.Spells (s : String) (z : Int) : Prop :=
  ∃ before numeral after, s.toList = before ++ numeral ++ after ∧
    (∀ c ∈ before, isBlank c = true) ∧ (∀ c ∈ after, isBlank c = true) ∧ IsSigned 10 numeral z

/-- There is no blank among the digits of a numeral. -/
theorem Text.IsNumeral.isBlank_eq_false {cs : List Char} (h : IsNumeral 10 cs) {c : Char}
    (hc : c ∈ cs) : isBlank c = false := by
  have hall : ∀ n < 128, digitOf (Char.ofNat n) < 10 → isBlank (Char.ofNat n) = false := by
    decide +kernel
  exact forall_digit (p := fun c => isBlank c = false) (by decide) hall (h.2 c hc)

/-- There is no blank among the characters that spell an integer. -/
theorem Text.IsSigned.isBlank_eq_false {cs : List Char} {z : Int} (h : IsSigned 10 cs z) :
    ∀ c ∈ cs, isBlank c = false := by
  cases h with
  | plain h => exact fun c hc => h.isBlank_eq_false hc
  | plus h =>
    exact List.forall_mem_cons.mpr ⟨by decide, fun c hc => h.isBlank_eq_false hc⟩
  | minus h =>
    exact List.forall_mem_cons.mpr ⟨by decide, fun c hc => h.isBlank_eq_false hc⟩

/-- A text without the blanks at its ends is read as an offset exactly if it spells it between
blanks. -/
theorem Literal.offset?_trimChars_eq_some_iff {s : String} {n : Offset} :
    offset? (Text.trimChars s.toList) = some n ↔ Text.Spells s n.toInt := by
  rw [offset?_eq_some_iff]
  constructor
  · intro h
    obtain ⟨before, after, hsplit, hbefore, hafter⟩ := Text.exists_append_trimChars s.toList
    exact ⟨before, _, after, hsplit, hbefore, hafter, h⟩
  · rintro ⟨before, numeral, after, hsplit, hbefore, hafter, h⟩
    rw [hsplit, Text.trimChars_append hbefore h.isBlank_eq_false hafter]
    exact h

namespace Payload

/-- The relative offset of a text is the offset that it spells. -/
theorem relativeOffset_text_of_spells {s : String} {n : Offset} (h : Text.Spells s n.toInt) :
    (literal (.text s)).relativeOffset = n := by
  rw [relativeOffset, Literal.offset?_trimChars_eq_some_iff.mpr h, Option.getD_some]

/-- The relative offset of a text that spells no offset is zero. -/
theorem relativeOffset_text_of_not_spells {s : String} (h : ∀ n : Offset, ¬ Text.Spells s n.toInt) :
    (literal (.text s)).relativeOffset = 0 := by
  have hread : Literal.offset? (Text.trimChars s.toList) = none :=
    Option.eq_none_iff_forall_ne_some.mpr fun n hn =>
      h n (Literal.offset?_trimChars_eq_some_iff.mp hn)
  rw [relativeOffset, hread, Option.getD_none]

/-- What is written for a number has the number as its relative offset. -/
theorem relativeOffset_text_render (n : Offset) :
    (literal (.text (number n).render)).relativeOffset = n := by
  have hcanonical := Literal.decimal_eq_iff.mp (Eq.refl (Text.decimal n.toInt))
  exact relativeOffset_text_of_spells
    ⟨[], _, [], (List.append_nil _).symm, nofun, nofun, hcanonical.isSigned⟩

end Payload

end StackLinker
