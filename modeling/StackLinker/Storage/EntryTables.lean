/-
# Entry tables

The nodes that hold the elements of arrays and the characters of strings.
-/
import StackLinker.Code.NodeId
import StackLinker.OrderedMap.Basic

namespace StackLinker

/-- The nodes of one kind of entries under the names of their variables, the names in the order in
which they were first registered. -/
abbrev EntryTable := OrderedMap String (List NodeId)

namespace EntryTable

/-- The nodes under a name, in the order of registration. -/
def entriesOf (table : EntryTable) (name : String) : List NodeId := (table.get? name).getD []

/-- The table with one more node under a name. -/
def register (table : EntryTable) (name : String) (id : NodeId) : EntryTable :=
  table.insert name (table.entriesOf name ++ [id])

/-- All names with their nodes, one pair for each registration. -/
def pairs (table : EntryTable) : List (String × NodeId) :=
  table.entries.flatMap fun e => e.2.map fun id => (e.1, id)

end EntryTable

/-- The nodes of array elements and of string characters. -/
structure EntryTables where
  arrays : EntryTable := ∅
  strings : EntryTable := ∅
  deriving DecidableEq

/-- All names with their nodes, those of arrays first. -/
def EntryTables.pairs (tables : EntryTables) : List (String × NodeId) :=
  tables.arrays.pairs ++ tables.strings.pairs

end StackLinker
