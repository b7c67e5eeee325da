/-
# What arguments say

Arguments that are accepted are a sequence of items: options with their values, flags, and names of
files.  The request that they make is what this sequence says: one file that has a name, of each
base the last that is given, and each flag if it is there at all.
-/
import StackLinker.CommandLine.Request

namespace StackLinker.CommandLine

/-! ## Items -/

/-- One thing that arguments say. -/
inductive Item where
  | addressBase (base : Address)
  | memoryBase (base : Offset)
  | skipValidation
  | verbose
  | file (name : String)
  deriving DecidableEq

namespace Item

/-- Tells how an item is spelled. -/
inductive Spelled : Item → List String → Prop
  | addressBase {option text : String} {base : Offset} (hoption : option = "-b" ∨ option = "--base")
    (hvalue : optionValue? text = some base) : Spelled (.addressBase base.toUInt64) [option, text]
  | memoryBase {option text : String} {base : Offset}
    (hoption : option = "-m" ∨ option = "--memory-base") (hvalue : optionValue? text = some base) :
    Spelled (.memoryBase base) [option, text]
  | skipValidation : Spelled .skipValidation ["--no-validate"]
  | verbose {option : String} (hoption : option = "-v" ∨ option = "--verbose") :
    Spelled .verbose [option]
  | file {name : String} (hname : name.toList.head? ≠ some '-') : Spelled (.file name) [name]

/-- Tells that arguments spell items one after the other. -/
inductive AllSpelled : List Item → List String → Prop
  | nil : AllSpelled [] []
  | cons {item : Item} {items : List Item} {spelling rest : List String}
    (hitem : item.Spelled spelling) (hrest : AllSpelled items rest) :
    AllSpelled (item :: items) (spelling ++ rest)

/-- The address base that an item gives. -/
def addressBase? : Item → Option Address
  | addressBase base => some base
  | _ => none

/-- The memory base that an item gives. -/
def memoryBase? : Item → Option Offset
  | memoryBase base => some base
  | _ => none

/-- The name of a file that an item gives; an empty one is as if it were not there. -/
def file? : Item → Option String
  | file name => if name = "" then none else some name
  | _ => none

end Item

/-- Tells that a request is what items say. -/
structure Request.Says (request : Request) (items : List Item) : Prop where
  file : items.filterMap Item.file? = [request.file]
  addressBase : request.addressBase = (items.filterMap Item.addressBase?).getLast?
  memoryBase : request.memoryBase = (items.filterMap Item.memoryBase?).getLast?
  validating : request.validating = true ↔ Item.skipValidation ∉ items
  verbose : request.verbose = true ↔ Item.verbose ∈ items

/-! ## What requests become -/

namespace Request

variable {request result : Request} {items : List Item}

/-- Tells that a request becomes another by items: what the items do not say stays as it was. -/
structure Becomes (request : Request) (items : List Item) (result : Request) : Prop where
  file : (if request.file = "" then [] else [request.file]) ++ items.filterMap Item.file? =
    [result.file]
  addressBase : result.addressBase =
    (items.filterMap Item.addressBase?).getLast?.or request.addressBase
  memoryBase : result.memoryBase = (items.filterMap Item.memoryBase?).getLast?.or request.memoryBase
  validating : result.validating = true ↔ request.validating = true ∧ Item.skipValidation ∉ items
  verbose : result.verbose = true ↔ request.verbose = true ∨ Item.verbose ∈ items

/-- The last of some values, if there is any, is the last of the values behind the first, or the
first. -/
theorem getLast?_cons_or {α : Type} (a : α) (rest : List α) (x : Option α) :
    (a :: rest).getLast?.or x = rest.getLast?.or (some a) := by
  rw [List.getLast?_cons]
  cases rest.getLast? <;> rfl

/-- A request with a file becomes itself by no items. -/
theorem Becomes.refl (hfile : request.file ≠ "") : request.Becomes [] request := by
  refine ⟨?_, rfl, rfl, by simp, by simp⟩
  rw [if_neg hfile]
  rfl

/-- The request with what an item says. -/
def apply (request : Request) : Item → Request
  | .addressBase base => { request with addressBase := some base }
  | .memoryBase base => { request with memoryBase := some base }
  | .skipValidation => { request with validating := false }
  | .verbose => { request with verbose := true }
  | .file name => { request with file := name }

/-- **One item.**  What a request becomes by other items once the first has been applied, it becomes
by all of them.  A file may only be given as long as there is none. -/
theorem Becomes.cons (item : Item) (h : (request.apply item).Becomes items result)
    (hfile : ∀ name, item = .file name → request.file = "") :
    request.Becomes (item :: items) result := by
  obtain ⟨hname, haddress, hmemory, hvalidating, hverbose⟩ := h
  cases item with
  | addressBase base =>
    refine ⟨hname, ?_, hmemory, by simpa [apply] using hvalidating, by simpa [apply] using hverbose⟩
    exact haddress.trans (getLast?_cons_or base _ _).symm
  | memoryBase base =>
    refine ⟨hname, haddress, ?_, by simpa [apply] using hvalidating,
      by simpa [apply] using hverbose⟩
    exact hmemory.trans (getLast?_cons_or base _ _).symm
  | skipValidation =>
    exact ⟨hname, haddress, hmemory, by simpa [apply] using hvalidating,
      by simpa [apply] using hverbose⟩
  | verbose =>
    exact ⟨hname, haddress, hmemory, by simpa [apply] using hvalidating,
      by simpa [apply] using hverbose⟩
  | file name =>
    refine ⟨?_, haddress, hmemory, by simpa [apply] using hvalidating,
      by simpa [apply] using hverbose⟩
    -- The request had no file, so it has one now exactly if the name is not empty.
    rw [if_pos (hfile name rfl), List.nil_append, List.filterMap_cons, Item.file?]
    by_cases hempty : name = ""
    · simpa [apply, hempty] using hname
    · simpa [apply, hempty] using hname

end Request

end StackLinker.CommandLine
