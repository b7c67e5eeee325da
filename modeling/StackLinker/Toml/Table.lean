/-
# Tables

How statements add to the tables of a document. Each key is set once. A header goes through any
table that is not a value, a dotted key only through tables that no header names; both go into the
last item of an array of tables.
-/
import StackLinker.Toml.Value

namespace StackLinker.Toml

/-! ## Going down -/

/-- What goes down through tables. -/
inductive Route where
  /-- The path of a header. -/
  | header
  /-- The path of a dotted key. -/
  | dotted
  deriving DecidableEq

/-- How a table comes to be that a route goes through first. -/
def Route.origin : Route → Origin
  | header => .implied
  | dotted => .dotted

/-- Tells whether a route may go through a table. -/
def Route.passes : Route → Origin → Bool
  | header, origin => origin ≠ .inline
  | dotted, origin => origin = .implied ∨ origin = .dotted

/-- Changes the table at the end of a path, making the tables on the way that are not there.  The
change gets the origin of the table and its entries. -/
def Entries.change (route : Route) (f : Origin → Entries → Option Entries) :
    List String → Origin → Entries → Option Entries
  | [], origin, entries => f origin entries
  | key :: path, _, entries =>
    match entries.lookup key with
    | none => do
      let child ← Entries.change route f path route.origin []
      return entries ++ [(key, .table route.origin child)]
    | some (.table origin below) =>
      if route.passes origin then do
        let child ← Entries.change route f path origin below
        return Entries.replace entries key (.table origin child)
      else none
    | some (.tables items) => do
      let last ← items.getLast?
      let child ← Entries.change route f path .header last
      return Entries.replace entries key (.tables (items.dropLast ++ [child]))
    | some _ => none

/-! ## Setting keys -/

/-- Sets a key of a table; a dotted key only adds to a table that dotted keys made. -/
def Entries.set (key : KeyPath) (value : Value) (origin : Origin) (entries : Entries) :
    Option Entries :=
  Entries.change .dotted (fun origin entries =>
    if (origin = .dotted ↔ key.path = []) then none
    else if (entries.lookup key.key).isSome then none
    else some (entries ++ [(key.key, value)])) key.path origin entries

/-- The entries of a table that is written as a value. -/
def Entries.ofPairs? (pairs : List (KeyPath × Value)) : Option Entries :=
  pairs.foldlM (fun entries p => Entries.set p.1 p.2 .inline entries) []

/-! ## Headers -/

/-- Opens the table that a header names: a new one, or one that only headers of tables below it
implied. -/
def Entries.openTable (key : KeyPath) (entries : Entries) : Option Entries :=
  Entries.change .header (fun _ entries =>
    match entries.lookup key.key with
    | none => some (entries ++ [(key.key, .table .header [])])
    | some (.table .implied below) => some (Entries.replace entries key.key (.table .header below))
    | some _ => none) key.path .header entries

/-- Opens one more item of the array of tables that a header names. -/
def Entries.openItem (key : KeyPath) (entries : Entries) : Option Entries :=
  Entries.change .header (fun _ entries =>
    match entries.lookup key.key with
    | none => some (entries ++ [(key.key, .tables [[]])])
    | some (.tables items) => some (Entries.replace entries key.key (.tables (items ++ [[]])))
    | some _ => none) key.path .header entries

/-! ## Statements -/

/-- A statement of a document. -/
inductive Statement where
  /-- A header that names a table. -/
  | table (key : KeyPath)
  /-- A header that names an array of tables. -/
  | item (key : KeyPath)
  /-- A key with its value. -/
  | pair (key : KeyPath) (value : Value)

/-- A document that is read in part. -/
structure Draft where
  /-- What the statements so far set. -/
  entries : Entries := []
  /-- The path to the table to which keys belong now. -/
  current : List String := []

/-- The draft after one more statement. -/
def Draft.add (draft : Draft) : Statement → Option Draft
  | .table key => do
    return ⟨← Entries.openTable key draft.entries, key.path ++ [key.key]⟩
  | .item key => do
    return ⟨← Entries.openItem key draft.entries, key.path ++ [key.key]⟩
  | .pair key value => do
    let set := Entries.set key value
    let entries ← Entries.change .header set draft.current .header draft.entries
    return { draft with entries }

/-- What the statements of a document set. -/
def Entries.ofStatements? (statements : List Statement) : Option Entries :=
  (statements.foldlM Draft.add {}).map Draft.entries

end StackLinker.Toml
