/-
# Reading an ordered map

What a read finds after a write, and how membership, keys and entries belong together.
-/
import StackLinker.OrderedMap.Basic

namespace StackLinker.OrderedMap

variable {κ ν : Type} [DecidableEq κ]

/-! ## Reading after a write -/

/-- The first entry answers for its key, the others answer for every other key. -/
theorem lookup_cons_eq_ite (k a : κ) (b : ν) (rest : List (κ × ν)) :
    ((a, b) :: rest).lookup k = if k = a then some b else rest.lookup k := by
  by_cases h : k = a
  · simp [h]
  · have hb : (k == a) = false := by simpa using h
    simp [List.lookup_cons, hb, h]

/-- In a list of entries, a read finds what was written last under its key. -/
theorem lookup_insertEntry (k k' : κ) (v : ν) (entries : List (κ × ν)) :
    (insertEntry k v entries).lookup k' = if k' = k then some v else entries.lookup k' := by
  induction entries with
  | nil => exact lookup_cons_eq_ite k' k v []
  | cons e rest ih =>
    obtain ⟨a, b⟩ := e
    by_cases ha : a = k
    · subst ha
      by_cases h : k' = a <;> simp [insertEntry, lookup_cons_eq_ite, h]
    · by_cases h : k' = a
      · subst h
        simp [insertEntry, ha]
      · simp [insertEntry, ha, lookup_cons_eq_ite, h, ih]

/-- A read finds what was written last under its key. -/
theorem get?_insert (m : OrderedMap κ ν) (k k' : κ) (v : ν) :
    (m.insert k v).get? k' = if k' = k then some v else m.get? k' :=
  lookup_insertEntry k k' v m.entries

/-- The empty map holds nothing. -/
@[simp] theorem get?_empty (k : κ) : (∅ : OrderedMap κ ν).get? k = none := rfl

/-- A write keeps the keys and their order, and adds a new one at the end. -/
theorem keys_insert (m : OrderedMap κ ν) (k : κ) (v : ν) :
    (m.insert k v).keys = if k ∈ m.keys then m.keys else m.keys ++ [k] :=
  keys_insertEntry k v m.entries

end StackLinker.OrderedMap
