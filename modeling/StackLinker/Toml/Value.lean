/-
# Values

What a key of a document can stand for. A table remembers how it came to be, since that decides
whether later statements may add to it.
-/
import StackLinker.Word

namespace StackLinker.Toml

/-- How a table came to be. -/
inductive Origin where
  /-- A header names it. -/
  | header
  /-- A header names a table below it. -/
  | implied
  /-- A dotted key goes through it. -/
  | dotted
  /-- It is written as a value. -/
  | inline
  deriving DecidableEq

/-- What a key stands for. -/
inductive Value where
  | text (value : String)
  | integer (value : Offset)
  /-- A number with a fraction or an exponent. -/
  | float
  | boolean (value : Bool)
  /-- A date or a time. -/
  | moment
  /-- An array written as a value. -/
  | array (items : List Value)
  /-- An array whose items are tables named by headers. -/
  | tables (items : List (List (String × Value)))
  | table (origin : Origin) (entries : List (String × Value))

/-- The keys of a table with what they stand for, in order; no key occurs twice. -/
abbrev Entries := List (String × Value)

/-- The place of a key: the keys to go through, and the key itself. -/
structure KeyPath where
  /-- The keys of the tables to go through. -/
  path : List String
  key : String
  deriving DecidableEq

/-- The entries with another value under a key that is there. -/
def Entries.replace (entries : Entries) (key : String) (value : Value) : Entries :=
  entries.map fun e => if e.1 = key then (key, value) else e

end StackLinker.Toml
