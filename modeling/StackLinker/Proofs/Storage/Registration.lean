/-
# Registrations of entries

Entries are registered one after the other, under the names of arrays and of strings in any order.
The table of either kind depends on the registrations of its kind alone: it holds under each name
the nodes registered under it, in their order and as often, and the names in the order in which they
first came.  Main statement: so the tables hold all registrations, each as often as it was made, and
nothing else.
-/
import StackLinker.Storage.EntryTables
import StackLinker.Proofs.OrderedMap
import Mathlib.Data.List.Basic

namespace StackLinker

/-! ## Registrations in one table -/

namespace EntryTable

variable {table : EntryTable} {name : String}

/-- The table that registrations leave, one after the other. -/
def registerAll (table : EntryTable) (registered : List (String × NodeId)) : EntryTable :=
  registered.foldl (fun table e => table.register e.1 e.2) table

/-- A registration puts the node behind those of its name, and keeps those of other names. -/
theorem entriesOf_register (table : EntryTable) (name : String) (id : NodeId) (name' : String) :
    (table.register name id).entriesOf name' =
      if name = name' then table.entriesOf name' ++ [id] else table.entriesOf name' := by
  rw [entriesOf, register, OrderedMap.get?_insert]
  by_cases h : name = name'
  · rw [if_pos h.symm, if_pos h, Option.getD_some, h]
  · rw [if_neg fun h' => h h'.symm, if_neg h, entriesOf]

/-- Registrations one after the other leave the nodes of a name in their order. -/
theorem entriesOf_registerAll (table : EntryTable) (registered : List (String × NodeId))
    (name : String) : (table.registerAll registered).entriesOf name =
      table.entriesOf name ++ (registered.filter fun e => e.1 = name).map Prod.snd := by
  induction registered generalizing table with
  | nil => exact (List.append_nil _).symm
  | cons e rest ih =>
    rw [registerAll, List.foldl_cons, ← registerAll, ih, entriesOf_register]
    by_cases h : e.1 = name <;> simp [h]

/-- Registrations one after the other leave each of their names once, in the order in which the
names first came. -/
theorem keys_registerAll (registered : List (String × NodeId)) :
    (registerAll ∅ registered).keys = (registered.map Prod.fst).eraseDups :=
  OrderedMap.keys_foldl_insert registered

/-- A name that is there keeps its place and gets one more node. -/
theorem entries_register_of_entries {ids : List NodeId} {before after : List (String × List NodeId)}
    (h : table.entries = before ++ (name, ids) :: after) (id : NodeId) :
    (table.register name id).entries = before ++ (name, ids ++ [id]) :: after := by
  rw [register, entriesOf, OrderedMap.get?_of_entries h]
  exact OrderedMap.entries_insert_of_entries h _

/-- A new name goes to the end with its node. -/
theorem entries_register_of_notMem (h : name ∉ table.keys) (id : NodeId) :
    (table.register name id).entries = table.entries ++ [(name, [id])] := by
  have hnone : table.get? name = none := OrderedMap.lookup_eq_none h
  rw [register, entriesOf, hnone]
  exact OrderedMap.insertEntry_of_notMem _ h

/-- A registration adds its pair to those of the table. -/
theorem perm_pairs_register (table : EntryTable) (name : String) (id : NodeId) :
    (table.register name id).pairs.Perm (table.pairs ++ [(name, id)]) := by
  -- Under a name that is there the pair comes to stand among the others, and else behind them.
  by_cases h : name ∈ table.keys
  · obtain ⟨⟨name, ids⟩, hentry, rfl⟩ := List.mem_map.mp h
    obtain ⟨before, after, hentries⟩ := List.append_of_mem hentry
    rw [pairs, pairs, entries_register_of_entries hentries id, hentries]
    simp only [List.flatMap_append, List.flatMap_cons, List.map_append, List.append_assoc]
    exact (List.perm_append_comm.append_left _).append_left _
  · rw [pairs, pairs, entries_register_of_notMem h, List.flatMap_append, List.flatMap_singleton]
    exact List.Perm.refl _

/-- Registrations one after the other add their pairs to those of the table. -/
theorem perm_pairs_registerAll (table : EntryTable) (registered : List (String × NodeId)) :
    (table.registerAll registered).pairs.Perm (table.pairs ++ registered) := by
  induction registered generalizing table with
  | nil =>
    rw [List.append_nil]
    exact List.Perm.refl _
  | cons e rest ih =>
    have hfirst := (perm_pairs_register table e.1 e.2).append_right rest
    rw [List.append_assoc] at hfirst
    exact (ih _).trans hfirst

/-- The pairs of a table are the nodes of its names, one name after the other. -/
theorem pairs_eq (table : EntryTable) : table.pairs =
    table.keys.flatMap fun name => (table.entriesOf name).map fun id => (name, id) := by
  rw [pairs, OrderedMap.keys, List.flatMap_map]
  refine List.flatMap_congr fun e he => ?_
  rw [entriesOf, OrderedMap.mem_entries_iff.mp he, Option.getD_some]

/-- Registrations leave their pairs name by name, in the order in which the names first came. -/
theorem pairs_registerAll (registered : List (String × NodeId)) :
    (registerAll ∅ registered).pairs = (registered.map Prod.fst).eraseDups.flatMap fun name =>
      registered.filter fun e => e.1 = name := by
  rw [pairs_eq, keys_registerAll]
  refine List.flatMap_congr fun name _ => ?_
  rw [entriesOf_registerAll, List.map_append, List.map_map]
  refine (List.map_congr_left fun e he => ?_).trans (List.map_id _)
  have hname : e.1 = name := by simpa using (List.mem_filter.mp he).2
  exact Prod.ext hname.symm rfl

end EntryTable

/-! ## Registrations of both kinds -/

/-- The kinds of entries. -/
inductive EntryKind where
  | array | string
  deriving DecidableEq

/-- The registration of a node as an entry under a name. -/
structure Registration where
  kind : EntryKind
  name : String
  id : NodeId
  deriving DecidableEq

namespace Registration

/-- The name and the node of a registration. -/
def pair (r : Registration) : String × NodeId := (r.name, r.id)

/-- The names and nodes that are registered as one kind of entries, in order. -/
def ofKind (kind : EntryKind) (history : List Registration) : List (String × NodeId) :=
  (history.filter fun r => r.kind = kind).map pair

/-- The registrations of arrays and those of strings are all registrations. -/
theorem perm_ofKind_append (history : List Registration) :
    (ofKind .array history ++ ofKind .string history).Perm (history.map pair) := by
  have hstring : (history.filter fun r => r.kind = .string) =
      history.filter fun r => !decide (r.kind = .array) := by
    refine List.filter_congr fun r _ => ?_
    cases r.kind <;> rfl
  rw [ofKind, ofKind, ← List.map_append, hstring]
  exact (List.filter_append_perm _ history).map pair

end Registration

namespace EntryTables

/-- The tables with one more entry. -/
def register (tables : EntryTables) (r : Registration) : EntryTables :=
  match r.kind with
  | .array => { tables with arrays := tables.arrays.register r.name r.id }
  | .string => { tables with strings := tables.strings.register r.name r.id }

/-- The tables that registrations leave, one after the other. -/
def registerAll (tables : EntryTables) (history : List Registration) : EntryTables :=
  history.foldl register tables

/-- The table of either kind is what the registrations of its kind leave. -/
theorem registerAll_eq (tables : EntryTables) (history : List Registration) :
    tables.registerAll history =
      { arrays := tables.arrays.registerAll (Registration.ofKind .array history)
        strings := tables.strings.registerAll (Registration.ofKind .string history) } := by
  induction history generalizing tables with
  | nil => rfl
  | cons r rest ih =>
    obtain ⟨kind, name, id⟩ := r
    rw [registerAll, List.foldl_cons, ← registerAll, ih]
    cases kind <;> rfl

/-- **Registrations.**  After any registrations from empty tables, a name has the nodes that were
registered under it as the same kind of entries, in their order and as often.  All entries are
listed name by name in the order in which the names were first registered, arrays before strings:
these are the registrations in another order.  Registrations of arrays and of strings may be made in
any order among each other. -/
theorem registerAll_lossless (history : List Registration) :
    let tables := registerAll {} history
    let arrays := Registration.ofKind .array history
    let strings := Registration.ofKind .string history
    (∀ name, tables.arrays.entriesOf name = (arrays.filter fun e => e.1 = name).map Prod.snd) ∧
    (∀ name, tables.strings.entriesOf name = (strings.filter fun e => e.1 = name).map Prod.snd) ∧
    tables.pairs =
      (arrays.map Prod.fst).eraseDups.flatMap (fun name => arrays.filter fun e => e.1 = name) ++
        (strings.map Prod.fst).eraseDups.flatMap (fun name => strings.filter fun e => e.1 = name) ∧
    tables.pairs.Perm (history.map Registration.pair) ∧
    ∀ history', Registration.ofKind .array history' = arrays →
      Registration.ofKind .string history' = strings → registerAll {} history' = tables := by
  intro tables arrays strings
  have htables : tables =
      { arrays := EntryTable.registerAll ∅ arrays, strings := EntryTable.registerAll ∅ strings } :=
    registerAll_eq {} history
  refine ⟨fun name => ?_, fun name => ?_, ?_, ?_, fun history' harrays hstrings => ?_⟩
  · rw [htables]
    exact EntryTable.entriesOf_registerAll ∅ arrays name
  · rw [htables]
    exact EntryTable.entriesOf_registerAll ∅ strings name
  · rw [htables, pairs, EntryTable.pairs_registerAll, EntryTable.pairs_registerAll]
  · rw [htables, pairs]
    have hpairs := (EntryTable.perm_pairs_registerAll ∅ arrays).append
      (EntryTable.perm_pairs_registerAll ∅ strings)
    exact hpairs.trans (Registration.perm_ofKind_append history)
  · rw [htables, registerAll_eq, harrays, hstrings]

/-- A name with a node that is registered twice, and a name that is registered for an array and for
a string. -/
def mixedHistory : List Registration :=
  [⟨.array, "b", 4⟩, ⟨.string, "a", 2⟩, ⟨.array, "a", 1⟩, ⟨.array, "b", 4⟩, ⟨.string, "c", 0⟩,
    ⟨.array, "b", 3⟩]

/-- The node stays twice under its name and the kinds stay apart; the pairs are grouped by name, and
the tables are the same with all strings registered before the arrays. -/
theorem mixedHistory_lossless :
    let tables := registerAll {} mixedHistory
    tables.arrays.entriesOf "b" = [4, 4, 3] ∧ tables.strings.entriesOf "b" = [] ∧
      tables.pairs = [("b", 4), ("b", 4), ("b", 3), ("a", 1), ("a", 2), ("c", 0)] ∧
      registerAll {} [⟨.string, "a", 2⟩, ⟨.string, "c", 0⟩, ⟨.array, "b", 4⟩, ⟨.array, "a", 1⟩,
        ⟨.array, "b", 4⟩, ⟨.array, "b", 3⟩] = tables := by
  obtain ⟨harrays, hstrings, hpairs, -, hsame⟩ := registerAll_lossless mixedHistory
  exact ⟨(harrays "b").trans (by decide), (hstrings "b").trans (by decide),
    hpairs.trans (by decide), hsame _ (by decide) (by decide)⟩

end EntryTables

end StackLinker
