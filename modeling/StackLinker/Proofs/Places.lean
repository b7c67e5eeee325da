/-
# Places of items

Some items of a list give a result.  The first result that passes a test, and the last result of
all, are told by the place of the item that gives it and by what the items before it or after it do
not give.  How many places have a property is told by a list of them.
-/
import Mathlib.Data.Finset.Card

namespace StackLinker

variable {α β : Type} {f : α → Option β} {items : List α} {b : β}

/-- The last result is that of the last item, or else comes before it. -/
theorem getLast?_filterMap_cons (f : α → Option β) (a : α) (rest : List α) :
    ((a :: rest).filterMap f).getLast? = ((rest.filterMap f).getLast?).or (f a) := by
  cases ha : f a with
  | none => rw [List.filterMap_cons_none ha, Option.or_none]
  | some b =>
    rw [List.filterMap_cons_some ha, List.getLast?_cons]
    cases (rest.filterMap f).getLast? <;> rfl

/-- The last result is given at a place after which no item gives a result. -/
theorem getLast?_filterMap_eq_some_iff :
    (items.filterMap f).getLast? = some b ↔
      ∃ (place : Nat) (a : α), items[place]? = some a ∧ f a = some b ∧
        ∀ (later : Nat) a', place < later → items[later]? = some a' → f a' = none := by
  induction items with
  | nil => simp
  | cons a rest ih =>
    rw [getLast?_filterMap_cons, Option.or_eq_some_iff, ih, List.getLast?_eq_none_iff,
      List.filterMap_eq_nil_iff]
    constructor
    · rintro (⟨place, a', ha', hb, hlater⟩ | ⟨hrest, hb⟩)
      · refine ⟨place + 1, a', ha', hb, ?_⟩
        rintro (_ | later) a'' hlt ha''
        · cases hlt
        · exact hlater later a'' (Nat.lt_of_succ_lt_succ hlt) ha''
      · refine ⟨0, a, rfl, hb, ?_⟩
        rintro (_ | later) a' hlt ha'
        · cases hlt
        · exact hrest a' (List.mem_of_getElem? ha')
    · rintro ⟨place, a', ha', hb, hlater⟩
      cases place with
      | zero =>
        rw [List.getElem?_cons_zero, Option.some_inj] at ha'
        refine .inr ⟨?_, ha' ▸ hb⟩
        intro a'' hmem
        obtain ⟨later, ha''⟩ := List.getElem?_of_mem hmem
        exact hlater (later + 1) a'' (Nat.succ_pos later) ha''
      | succ place =>
        exact .inl ⟨place, a', ha', hb, fun later a'' hlt ha'' =>
          hlater (later + 1) a'' (Nat.succ_lt_succ hlt) ha''⟩

/-- The first result that passes a test is given at a place before which no result passes it. -/
theorem find?_filterMap_eq_some_iff {p : β → Bool} :
    (items.filterMap f).find? p = some b ↔
      ∃ (place : Nat) (a : α), items[place]? = some a ∧ f a = some b ∧ p b = true ∧
        ∀ (earlier : Nat) a' b', earlier < place → items[earlier]? = some a' → f a' = some b' →
          p b' = false := by
  rw [List.find?_filterMap, Option.bind_eq_some_iff]
  simp only [List.find?_eq_some_iff_getElem, Bool.not_eq_true', Option.any_eq_false]
  constructor
  · rintro ⟨a, ⟨hp, place, hplace, rfl, hearlier⟩, hb⟩
    rw [hb, Option.any_some] at hp
    refine ⟨place, items[place], List.getElem?_eq_getElem hplace, hb, hp, ?_⟩
    intro earlier a' b' hlt ha' hb'
    obtain ⟨_, rfl⟩ := List.getElem?_eq_some_iff.mp ha'
    exact hearlier earlier hlt b' hb'
  · rintro ⟨place, a, ha, hb, hp, hearlier⟩
    obtain ⟨hplace, rfl⟩ := List.getElem?_eq_some_iff.mp ha
    refine ⟨items[place], ⟨?_, place, hplace, rfl, ?_⟩, hb⟩
    · rw [hb, Option.any_some, hp]
    · intro earlier hlt b' hb'
      exact hearlier earlier _ b' hlt (List.getElem?_eq_getElem (Nat.lt_trans hlt hplace)) hb'

/-- The places with a property are those of a list that names them all. -/
theorem filter_range_eq_toFinset {size : Nat} {p : Nat → Prop} [DecidablePred p] {places : List Nat}
    (hmem : ∀ place, p place ↔ place ∈ places) (hlt : ∀ place, p place → place < size) :
    (Finset.range size).filter p = places.toFinset := by
  ext place
  rw [Finset.mem_filter, Finset.mem_range, List.mem_toFinset, ← hmem]
  exact and_iff_right_of_imp (hlt place)

end StackLinker
