/-
# What trimming leaves

Trimming takes blanks from both ends and nothing else, and takes all of them there.
-/
import StackLinker.Text.Blank

namespace StackLinker.Text

/-- A text is what trimming leaves of it between blanks. -/
theorem exists_append_trimChars (cs : List Char) : ∃ before after,
    cs = before ++ trimChars cs ++ after ∧ (∀ c ∈ before, isBlank c = true) ∧
      ∀ c ∈ after, isBlank c = true := by
  have hsplit : ∀ ds : List Char, ∃ blanks, ds = blanks ++ ds.dropWhile isBlank ∧
      ∀ c ∈ blanks, isBlank c = true := fun ds =>
    ⟨ds.takeWhile isBlank, List.takeWhile_append_dropWhile.symm,
      fun _ hc => List.all_eq_true.mp List.all_takeWhile _ hc⟩
  obtain ⟨before, hbefore, hblank⟩ := hsplit cs
  obtain ⟨after, hafter, hblank'⟩ := hsplit (cs.dropWhile isBlank).reverse
  refine ⟨before, after.reverse, ?_, hblank, fun c hc => hblank' c (List.mem_reverse.mp hc)⟩
  rw [trimChars, List.append_assoc, ← List.reverse_append, ← hafter, List.reverse_reverse]
  exact hbefore

/-- Where no blank is, there is nothing to drop. -/
theorem dropWhile_isBlank_of_forall {cs : List Char} (h : ∀ c ∈ cs, isBlank c = false) :
    cs.dropWhile isBlank = cs := by
  cases cs with
  | nil => rfl
  | cons c cs =>
    apply List.dropWhile_cons_of_neg
    rw [h c List.mem_cons_self]
    decide

/-- Characters between blanks are what trimming leaves if there is no blank among them. -/
theorem trimChars_append {before middle after : List Char}
    (hbefore : ∀ c ∈ before, isBlank c = true)
    (hmiddle : ∀ c ∈ middle, isBlank c = false) (hafter : ∀ c ∈ after, isBlank c = true) :
    trimChars (before ++ middle ++ after) = middle := by
  have hafter' : ∀ c ∈ after.reverse, isBlank c = true := fun c hc =>
    hafter c (List.mem_reverse.mp hc)
  have hmiddle' : ∀ c ∈ middle.reverse, isBlank c = false := fun c hc =>
    hmiddle c (List.mem_reverse.mp hc)
  rw [trimChars, List.append_assoc, List.dropWhile_append_of_pos hbefore]
  cases middle with
  | nil => rw [List.nil_append, ← List.append_nil after, List.dropWhile_append_of_pos hafter]; rfl
  | cons c cs =>
    have hfirst : ¬ isBlank c = true := by
      rw [hmiddle c List.mem_cons_self]
      decide
    rw [List.cons_append, List.dropWhile_cons_of_neg hfirst, ← List.cons_append,
      List.reverse_append, List.dropWhile_append_of_pos hafter',
      dropWhile_isBlank_of_forall hmiddle', List.reverse_reverse]

end StackLinker.Text
