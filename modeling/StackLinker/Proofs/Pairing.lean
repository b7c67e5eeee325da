/-
# Lists that are related item by item

What two lists share when each item of one is related to the item at its place in the other.
-/
import Mathlib.Data.List.Forall2

namespace StackLinker

variable {α β : Type} {R : α → β → Prop} {items : List α} {partners : List β}

/-- An item has its partner at the same place. -/
theorem exists_partner (h : List.Forall₂ R items partners) {place : Nat} {a : α}
    (ha : items[place]? = some a) : ∃ b, partners[place]? = some b ∧ R a b := by
  induction h generalizing place with
  | nil => simp at ha
  | cons hhead _ ih =>
    cases place with
    | zero =>
      rw [List.getElem?_cons_zero, Option.some_inj] at ha
      exact ⟨_, List.getElem?_cons_zero, ha ▸ hhead⟩
    | succ place =>
      rw [List.getElem?_cons_succ] at ha ⊢
      exact ih ha

/-- A partner has its item at the same place. -/
theorem exists_item (h : List.Forall₂ R items partners) {place : Nat} {b : β}
    (hb : partners[place]? = some b) : ∃ a, items[place]? = some a ∧ R a b :=
  exists_partner (R := flip R) h.flip hb

/-- What partners have in common reads the same off both lists. -/
theorem map_eq_of_forall₂ {γ : Type} (h : List.Forall₂ R items partners) {f : α → γ} {g : β → γ}
    (hfg : ∀ a b, R a b → f a = g b) : items.map f = partners.map g := by
  induction h with
  | nil => rfl
  | cons hhead _ ih => rw [List.map_cons, List.map_cons, ih, hfg _ _ hhead]

/-- A test that comes out alike on partners counts as many items as partners. -/
theorem countP_eq_of_forall₂ (h : List.Forall₂ R items partners) {p : α → Bool} {q : β → Bool}
    (hpq : ∀ a b, R a b → p a = q b) : items.countP p = partners.countP q := by
  have hmap := congrArg (List.countP id) (map_eq_of_forall₂ h hpq)
  rwa [List.countP_map, List.countP_map] at hmap

/-! ## Values that may be missing -/

/-- Values that are related, or both missing, stay so when they are read through maps that keep
it. -/
theorem rel_map {γ δ : Type} {S : γ → δ → Prop} {f : α → γ} {g : β → δ} {x : Option α}
    {y : Option β}
    (h : Option.Rel R x y) (hfg : ∀ a b, R a b → S (f a) (g b)) :
    Option.Rel S (x.map f) (y.map g) := by
  cases h with
  | none => exact .none
  | some hab => exact .some (hfg _ _ hab)

/-- Of two related values both are there or both are missing. -/
theorem isSome_eq_of_rel {x : Option α} {y : Option β} (h : Option.Rel R x y) :
    x.isSome = y.isSome := by
  cases h <;> rfl

/-- A value that is there has its partner. -/
theorem exists_of_rel {x : Option α} {y : Option β} (h : Option.Rel R x y) {a : α}
    (hx : x = some a) :
    ∃ b, y = some b ∧ R a b := by
  cases h with
  | none => cases hx
  | some hab =>
    cases hx
    exact ⟨_, rfl, hab⟩

end StackLinker
