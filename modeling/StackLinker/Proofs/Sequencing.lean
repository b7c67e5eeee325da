/-
# Sequences of fallible computations

A sequence succeeds if all of its parts do, and otherwise has the fault of the first part that
fails.  If the faults of each part can be listed, the sequence reports the first of all those lists.
-/
import Mathlib.Data.List.Forall2

namespace StackLinker

variable {ε α β σ : Type}

/-! ## Success -/

/-- A sequence succeeds exactly if both of its parts do. -/
theorem bind_eq_ok_iff {x : Except ε α} {f : α → Except ε β} {b : β} :
    (x >>= f) = .ok b ↔ ∃ a, x = .ok a ∧ f a = .ok b := by
  cases x with
  | ok a =>
    constructor
    · intro h
      exact ⟨a, rfl, h⟩
    · rintro ⟨a', ha, h⟩
      cases ha
      exact h
  | error fault =>
    constructor
    · intro h
      cases h
    · rintro ⟨_, h, -⟩
      cases h

/-- A result that is read through a map is that of a success. -/
theorem map_eq_ok_iff {x : Except ε α} {f : α → β} {b : β} :
    x.map f = .ok b ↔ ∃ a, x = .ok a ∧ f a = b := by
  cases x <;> simp [Except.map]

/-- Items that are all computed give their results in order. -/
theorem forall₂_of_mapM {f : α → Except ε β} {items : List α} {results : List β}
    (h : items.mapM f = .ok results) : List.Forall₂ (fun a b => f a = .ok b) items results := by
  induction items generalizing results with
  | nil =>
    cases h
    exact .nil
  | cons a rest ih =>
    rw [List.mapM_cons] at h
    obtain ⟨b, hb, hrest⟩ := bind_eq_ok_iff.mp h
    obtain ⟨bs, hbs, heq⟩ := bind_eq_ok_iff.mp hrest
    cases heq
    exact .cons hb (ih hbs)

/-- If each item is computed like another one, up to maps of results and faults, then so are all. -/
theorem mapM_map_eq {γ δ : Type} {f : α → Except ε β} {g : γ → Except ε δ} {p : α → γ} {h : β → δ}
    {k : ε → ε} (hitem : ∀ a, g (p a) = ((f a).map h).mapError k) (items : List α) :
    (items.map p).mapM g = ((items.mapM f).map (List.map h)).mapError k := by
  induction items with
  | nil => rfl
  | cons a rest ih =>
    rw [List.map_cons, List.mapM_cons, List.mapM_cons, hitem, ih]
    cases f a with
    | error fault => rfl
    | ok b => cases rest.mapM f <;> rfl

/-- Two loops that both succeed keep a relation between their states that each step keeps.  The
relation may speak of the items that are still to come. -/
theorem related_of_foldlM {τ : Type} {R : List α → σ → τ → Prop} {f : σ → α → Except ε σ}
    {g : τ → α → Except ε τ}
    (hstep : ∀ {a rest s t s' t'}, R (a :: rest) s t → f s a = .ok s' → g t a = .ok t' →
      R rest s' t')
    {items : List α} {s s' : σ} {t t' : τ} (h : R items s t) (hf : items.foldlM f s = .ok s')
    (hg : items.foldlM g t = .ok t') : R [] s' t' := by
  induction items generalizing s t with
  | nil =>
    cases hf
    cases hg
    exact h
  | cons a rest ih =>
    rw [List.foldlM_cons] at hf hg
    obtain ⟨s₁, hs₁, hf⟩ := bind_eq_ok_iff.mp hf
    obtain ⟨t₁, ht₁, hg⟩ := bind_eq_ok_iff.mp hg
    exact ih (hstep h hs₁ ht₁) hf hg

/-! ## First faults -/

/-- A computation succeeds if there is no fault to report, and fails with the first one
otherwise. -/
def Reports (x : Except ε α) : List ε → Prop
  | [] => ∃ a, x = .ok a
  | fault :: _ => x = .error fault

namespace Reports

variable {x : Except ε α} {faults later : List ε}

/-- Success reports nothing. -/
theorem ok (a : α) : Reports (.ok a : Except ε α) [] := ⟨a, rfl⟩

/-- A computation that reports faults succeeds exactly if there are none. -/
theorem exists_ok_iff (h : Reports x faults) : (∃ a, x = .ok a) ↔ faults = [] := by
  cases faults with
  | nil => exact ⟨fun _ => rfl, fun _ => h⟩
  | cons fault rest =>
    have hx : x = .error fault := h
    simp [hx]

/-- A computation that reports faults fails with the first of them and with no other. -/
theorem eq_error_iff (h : Reports x faults) {fault : ε} :
    x = .error fault ↔ faults.head? = some fault := by
  cases faults with
  | nil =>
    obtain ⟨a, rfl⟩ := h
    simp
  | cons first rest =>
    have hx : x = .error first := h
    simp [hx]

/-- The faults of a sequence are those of its parts, one after the other.  The second part is only
reached with a result of the first. -/
theorem bind {f : α → Except ε β} (h : Reports x faults)
    (hstep : ∀ a, x = .ok a → Reports (f a) later) : Reports (x >>= f) (faults ++ later) := by
  cases faults with
  | nil =>
    obtain ⟨a, rfl⟩ := h
    exact hstep a rfl
  | cons fault rest =>
    have hx : x = .error fault := h
    rw [hx]
    exact rfl

/-- A map has no faults of its own. -/
theorem map {f : α → β} (h : Reports x faults) : Reports (x.map f) faults := by
  cases faults with
  | nil =>
    obtain ⟨a, rfl⟩ := h
    exact ok (f a)
  | cons fault rest =>
    have hx : x = .error fault := h
    rw [hx]
    exact rfl

/-- A last step that succeeds has no faults of its own. -/
theorem bind_ok {f : α → β} (h : Reports x faults) :
    Reports (x >>= fun a => .ok (f a)) faults := by
  rw [← List.append_nil faults]
  exact h.bind fun a _ => ok (f a)

/-- The faults of a computation over items are those of the items, in order. -/
theorem mapM {f : α → Except ε β} {g : α → List ε} (h : ∀ a, Reports (f a) (g a))
    (items : List α) : Reports (items.mapM f) (items.flatMap g) := by
  induction items with
  | nil => exact ok []
  | cons a rest ih =>
    rw [List.mapM_cons, List.flatMap_cons]
    exact (h a).bind fun b _ => ih.bind_ok

/-- The faults of a loop are those of its items, in order, if they do not depend on its state. -/
theorem foldlM {f : σ → α → Except ε σ} {g : α → List ε} (h : ∀ s a, Reports (f s a) (g a))
    (items : List α) (s : σ) : Reports (items.foldlM f s) (items.flatMap g) := by
  induction items generalizing s with
  | nil => exact ok s
  | cons a rest ih =>
    rw [List.foldlM_cons, List.flatMap_cons]
    exact (h s a).bind fun s' _ => ih s'

end Reports

end StackLinker
