/-
# Entries of an ordered map

Where a write puts an entry, and which keys an ordered map answers.  Since no key occurs twice, it
does not matter from which end the entries are searched.
-/
import StackLinker.OrderedMap.Lemmas
import Mathlib.Data.List.Induction

namespace StackLinker.OrderedMap

variable {κ ν : Type} [DecidableEq κ]

/-! ## Places of entries -/

/-- A new key goes to the end. -/
theorem insertEntry_of_notMem {k : κ} {entries : List (κ × ν)} (v : ν)
    (h : k ∉ entries.map Prod.fst) : insertEntry k v entries = entries ++ [(k, v)] := by
  induction entries with
  | nil => rfl
  | cons e rest ih =>
    rw [List.map_cons, List.mem_cons, not_or] at h
    rw [insertEntry, if_neg fun he => h.1 he.symm, ih h.2, List.cons_append]

/-- A key that is there keeps its place. -/
theorem insertEntry_append_cons {k : κ} {before : List (κ × ν)} (v w : ν) (after : List (κ × ν))
    (h : k ∉ before.map Prod.fst) :
    insertEntry k v (before ++ (k, w) :: after) = before ++ (k, v) :: after := by
  induction before with
  | nil => simp [insertEntry]
  | cons e rest ih =>
    rw [List.map_cons, List.mem_cons, not_or] at h
    rw [List.cons_append, insertEntry, if_neg fun he => h.1 he.symm, ih h.2, List.cons_append]

/-! ## Searching -/

/-- A search finds nothing under a key that no entry has. -/
theorem lookup_eq_none {k : κ} {entries : List (κ × ν)} (h : k ∉ entries.map Prod.fst) :
    entries.lookup k = none := by
  rw [List.lookup_eq_none_iff]
  intro e he
  rw [bne_iff_ne]
  rintro rfl
  exact h (List.mem_map_of_mem he)

/-- A search passes over entries with other keys. -/
theorem lookup_append_cons {k : κ} {before : List (κ × ν)} (v : ν) (after : List (κ × ν))
    (h : k ∉ before.map Prod.fst) : (before ++ (k, v) :: after).lookup k = some v := by
  rw [List.lookup_append, lookup_eq_none h, Option.none_or, List.lookup_cons_self]

/-- Where no key occurs twice, a search from the end finds what a search from the start finds. -/
theorem lookup_reverse {entries : List (κ × ν)} (h : (entries.map Prod.fst).Nodup) (k : κ) :
    entries.reverse.lookup k = entries.lookup k := by
  induction entries with
  | nil => rfl
  | cons e rest ih =>
    obtain ⟨a, b⟩ := e
    rw [List.map_cons, List.nodup_cons] at h
    rw [List.reverse_cons, List.lookup_append, ih h.2, lookup_cons_eq_ite,
      lookup_cons_eq_ite k a b rest, List.lookup_nil]
    by_cases hk : k = a
    · -- No later entry has this key, so the search from the end comes down to it.
      subst hk
      rw [lookup_eq_none h.1, if_pos rfl, Option.none_or]
    · rw [if_neg hk, if_neg hk, Option.or_none]

/-- A search finds something under the keys of the entries and under no others. -/
theorem isSome_lookup_iff (entries : List (κ × ν)) (k : κ) :
    (entries.lookup k).isSome = true ↔ k ∈ entries.map Prod.fst := by
  rw [List.lookup_isSome_iff, List.mem_map]
  constructor
  · rintro ⟨e, he, hk⟩
    exact ⟨e, he, (beq_iff_eq.mp hk).symm⟩
  · rintro ⟨e, he, rfl⟩
    exact ⟨e, he, beq_self_eq_true e.1⟩

/-- An ordered map answers its keys and no others. -/
theorem contains_iff_mem_keys (m : OrderedMap κ ν) (k : κ) : m.contains k = true ↔ k ∈ m.keys :=
  isSome_lookup_iff m.entries k

/-! ## Entries written one after the other -/

/-- Of entries that are written one after the other a read finds the last under its key. -/
theorem get?_foldl_insert (entries : List (κ × ν)) (m : OrderedMap κ ν) (k : κ) :
    (entries.foldl (fun m e => m.insert e.1 e.2) m).get? k =
      (entries.reverse.lookup k).or (m.get? k) := by
  induction entries generalizing m with
  | nil => rfl
  | cons e rest ih =>
    obtain ⟨a, b⟩ := e
    rw [List.foldl_cons, ih, get?_insert, List.reverse_cons, List.lookup_append,
      lookup_cons_eq_ite, List.lookup_nil, Option.or_assoc]
    by_cases hk : k = a <;> simp [hk]

/-- What is found among entries that are written one after the other is one of them. -/
theorem mem_of_get?_foldl_insert {entries : List (κ × ν)} {k : κ} {v : ν}
    (h : (entries.foldl (fun m e => m.insert e.1 e.2) (∅ : OrderedMap κ ν)).get? k = some v) :
    (k, v) ∈ entries := by
  rw [get?_foldl_insert, get?_empty, Option.or_none, List.lookup_eq_some_iff] at h
  obtain ⟨later, before, hentries, -⟩ := h
  rw [← List.mem_reverse, hentries]
  exact List.mem_append_right later List.mem_cons_self

/-- Entries that are written one after the other answer their keys and no others. -/
theorem contains_foldl_insert_iff (entries : List (κ × ν)) (k : κ) :
    (entries.foldl (fun m e => m.insert e.1 e.2) (∅ : OrderedMap κ ν)).contains k = true ↔
      k ∈ entries.map Prod.fst := by
  rw [contains, get?_foldl_insert, get?_empty, Option.or_none, isSome_lookup_iff, List.map_reverse,
    List.mem_reverse]

/-- Writes one after the other leave each of their keys once, in the order in which the keys first
came, whatever is written. -/
theorem keys_foldl_insert {ι : Type} {key : ι → κ} {value : OrderedMap κ ν → ι → ν}
    (items : List ι) :
    (items.foldl (fun m item => m.insert (key item) (value m item)) (∅ : OrderedMap κ ν)).keys =
      (items.map key).eraseDups := by
  induction items using List.reverseRecOn with
  | nil => rfl
  | append_singleton before item ih =>
    rw [List.foldl_append, List.foldl_cons, List.foldl_nil, keys_insert, ih, List.map_append,
      List.eraseDups_append]
    simp only [List.mem_eraseDups, List.map_cons, List.map_nil, List.removeAll, List.filter_cons,
      List.filter_nil]
    by_cases h : key item ∈ before.map key <;> simp [h, List.eraseDups_cons]

/-! ## Values read through a map -/

/-- The map with the same keys, and each value read through `f`. -/
def mapValues {μ : Type} (f : ν → μ) (m : OrderedMap κ ν) : OrderedMap κ μ where
  entries := m.entries.map fun e => (e.1, f e.2)
  nodup_keys := by
    rw [List.map_map]
    exact m.nodup_keys

/-- A key answers with its value read through the map. -/
theorem get?_mapValues {μ : Type} (f : ν → μ) (m : OrderedMap κ ν) (k : κ) :
    (m.mapValues f).get? k = (m.get? k).map f := by
  show (m.entries.map fun e => (e.1, f e.2)).lookup k = (m.entries.lookup k).map f
  induction m.entries with
  | nil => rfl
  | cons e rest ih =>
    obtain ⟨a, b⟩ := e
    rw [List.map_cons, lookup_cons_eq_ite, lookup_cons_eq_ite, ih]
    split <;> rfl

/-! ## An entry between others -/

variable {m : OrderedMap κ ν} {k : κ} {v : ν} {before after : List (κ × ν)}

omit [DecidableEq κ] in
/-- The key of an entry is none of those before it. -/
theorem notMem_of_entries (h : m.entries = before ++ (k, v) :: after) :
    k ∉ before.map Prod.fst := by
  have hnodup := m.nodup_keys
  rw [h, List.map_append, List.map_cons, List.nodup_append] at hnodup
  intro hk
  exact hnodup.2.2 k hk k List.mem_cons_self rfl

/-- A read finds an entry wherever it stands. -/
theorem get?_of_entries (h : m.entries = before ++ (k, v) :: after) : m.get? k = some v := by
  rw [get?, h]
  exact lookup_append_cons v after (notMem_of_entries h)

/-- A write replaces an entry where it stands. -/
theorem entries_insert_of_entries (h : m.entries = before ++ (k, v) :: after) (w : ν) :
    (m.insert k w).entries = before ++ (k, w) :: after := by
  show insertEntry k w m.entries = _
  rw [h]
  exact insertEntry_append_cons w v after (notMem_of_entries h)

/-- The entries of an ordered map are what it answers. -/
theorem mem_entries_iff : (k, v) ∈ m.entries ↔ m.get? k = some v := by
  constructor
  · intro h
    obtain ⟨before, after, hentries⟩ := List.append_of_mem h
    exact get?_of_entries hentries
  · intro h
    obtain ⟨before, after, hentries, -⟩ := List.lookup_eq_some_iff.mp h
    rw [hentries]
    exact List.mem_append_right before List.mem_cons_self

end StackLinker.OrderedMap
