/-
# Agreement of fallible computations

A computation that names its faults agrees with one that only fails if both fail, or both succeed
with results that belong together.  Agreement goes through sequencing, so two loops agree as soon as
their steps do.
-/
namespace StackLinker

variable {ε α β γ δ ι : Type}

/-- Both computations fail, or both succeed with results that `R` relates. -/
inductive Agrees (R : α → β → Prop) : Except ε α → Option β → Prop
  | ok {a : α} {b : β} (h : R a b) : Agrees R (.ok a) (some b)
  | error {e : ε} : Agrees R (.error e) none

namespace Agrees

variable {R : α → β → Prop} {S : γ → δ → Prop} {x : Except ε α} {y : Option β}

/-- The second result may be read through a map. -/
theorem map_right {T : α → γ → Prop} {g : β → γ} (h : Agrees R x y)
    (hT : ∀ a b, R a b → T a (g b)) : Agrees T x (y.map g) := by
  cases h with
  | ok h => exact .ok (hT _ _ h)
  | error => exact .error

/-- Steps that agree, one after the other, agree. -/
theorem bind {f : α → Except ε γ} {g : β → Option δ} (h : Agrees R x y)
    (hstep : ∀ a b, R a b → Agrees S (f a) (g b)) : Agrees S (x >>= f) (y.bind g) := by
  cases h with
  | ok h => exact hstep _ _ h
  | error => exact .error

/-- Loops agree if their steps keep the relation. -/
theorem foldlM {R : α → β → Prop} {f : α → ι → Except ε α} {g : β → ι → Option β}
    (hstep : ∀ a b i, R a b → Agrees R (f a i) (g b i)) (items : List ι) {a : α} {b : β}
    (h : R a b) : Agrees R (items.foldlM f a) (items.foldlM g b) := by
  induction items generalizing a b with
  | nil => exact .ok h
  | cons i rest ih =>
    rw [List.foldlM_cons, List.foldlM_cons]
    exact (hstep a b i h).bind fun _ _ h' => ih h'

/-- If the results that belong together are those that `f` maps to each other, agreement is
equality of the results. -/
theorem toOption_map {f : α → β} (h : Agrees (fun a b => f a = b) x y) : x.toOption.map f = y := by
  cases h with
  | ok h => exact congrArg some h
  | error => rfl

/-- A success agrees with a success. -/
theorem of_eq_ok (h : Agrees R x y) {a : α} (hx : x = .ok a) : ∃ b, y = some b ∧ R a b := by
  subst hx
  cases h with
  | ok h => exact ⟨_, rfl, h⟩

end Agrees

end StackLinker
