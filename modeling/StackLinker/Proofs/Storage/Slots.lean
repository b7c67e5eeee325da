/-
# Slots of storage

Variables may be declared in any order and more than once: a name keeps the place of its first
declaration and has the storage of its last.  From the memory base on, each variable then begins
where the sizes before it end, counted in exact integers.  Main statement: this is the layout of any
history of declarations, so no two slots meet, and where there is no layout the fault names the
first variable that does not fit.
-/
import StackLinker.Proofs.Word
import StackLinker.Proofs.Storage.Layout
import Mathlib.Algebra.GroupWithZero.Nat
import Mathlib.Data.Int.ConditionallyCompleteOrder
import Mathlib.Data.Nat.Find
import Mathlib.Order.CompletePartialOrder
import Mathlib.Order.ConditionallyCompleteLattice.Basic

namespace StackLinker

/-! ## Histories of declarations -/

/-- The storage that a name was last declared with. -/
def lastDeclared? (history : List (String × Slot)) (name : String) : Option Slot :=
  history.reverse.lookup name

namespace Declarations

/-- Declares variables one after the other; the first part of the answer has for each of them the
storage that its name had before. -/
def declareAll (declarations : Declarations) :
    List (String × Slot) → List (Option Slot) × Declarations
  | [] => ([], declarations)
  | (name, slot) :: rest =>
    let (previous, next) := declarations.declare name slot
    let (answers, last) := declareAll next rest
    (previous :: answers, last)

/-- Declarations are writes to the table. -/
theorem declareAll_snd (declarations : Declarations) (history : List (String × Slot)) :
    (declarations.declareAll history).2 =
      history.foldl (fun table e => table.insert e.1 e.2) declarations := by
  induction history generalizing declarations with
  | nil => rfl
  | cons e rest ih => exact ih _

/-- Each declaration answers with what the table before it holds under its name. -/
theorem getElem?_declareAll (declarations : Declarations) (history : List (String × Slot))
    (place : Nat) : (declarations.declareAll history).1[place]? =
      history[place]?.map fun e => (declarations.declareAll (history.take place)).2.get? e.1 := by
  induction history generalizing declarations place with
  | nil => rfl
  | cons e rest ih =>
    cases place with
    | zero => rfl
    | succ place => exact ih (declarations.declare e.1 e.2).2 place

/-- The table holds under each name the storage that it was last declared with. -/
theorem get?_declareAll (history : List (String × Slot)) (name : String) :
    (declareAll ∅ history).2.get? name = lastDeclared? history name := by
  rw [declareAll_snd, OrderedMap.get?_foldl_insert]
  exact Option.or_none

/-- The table holds each declared name once, in the order of first declarations. -/
theorem keys_declareAll (history : List (String × Slot)) :
    (declareAll ∅ history).2.keys = (history.map Prod.fst).eraseDups := by
  rw [declareAll_snd]
  exact OrderedMap.keys_foldl_insert history

end Declarations

/-! ## Units of storage -/

/-- The number of storage units that variables take together. -/
def storageUnits (declared : List (String × Slot)) : Nat :=
  (declared.map fun e => e.2.size.toNat).sum

@[simp] theorem storageUnits_nil : storageUnits [] = 0 := rfl

@[simp] theorem storageUnits_cons (e : String × Slot) (rest : List (String × Slot)) :
    storageUnits (e :: rest) = e.2.size.toNat + storageUnits rest := by
  simp [storageUnits]

variable {declared : List (String × Slot)} {place later : Nat} {e : String × Slot}

/-- Variables one after the other take the units of both. -/
theorem storageUnits_append (declared others : List (String × Slot)) :
    storageUnits (declared ++ others) = storageUnits declared + storageUnits others := by
  simp [storageUnits]

/-- The units up to the end of a variable are those before it and its own. -/
theorem storageUnits_take_succ {name : String} {slot : Slot}
    (h : declared[place]? = some (name, slot)) :
    storageUnits (declared.take (place + 1)) =
      storageUnits (declared.take place) + slot.size.toNat := by
  rw [List.take_add_one, h, storageUnits_append]
  simp

/-- Up to a later place there are no fewer units. -/
theorem storageUnits_take_le (h : place ≤ later) :
    storageUnits (declared.take place) ≤ storageUnits (declared.take later) := by
  obtain ⟨more, rfl⟩ := Nat.exists_eq_add_of_le h
  rw [List.take_add, storageUnits_append]
  omega

/-- Up to no place there are more units than in all. -/
theorem storageUnits_take_le_all (declared : List (String × Slot)) (place : Nat) :
    storageUnits (declared.take place) ≤ storageUnits declared := by
  conv_rhs => rw [← List.take_append_drop place declared, storageUnits_append]
  omega

/-! ## Variables that do not fit -/

/-- Tells that the variable at a place does not fit: its size is too large for an offset, or the
offset behind it is. -/
def OverflowsAt (start : Int) (declared : List (String × Slot)) (place : Nat) : Prop :=
  ∃ e, declared[place]? = some e ∧
    (Int64.maxValue.toInt < e.2.size.toNat ∨
      Int64.maxValue.toInt < start + storageUnits (declared.take (place + 1)))

/-- The first variable fits if there is an offset behind it. -/
theorem overflowsAt_zero_iff {start : Offset} {rest : List (String × Slot)} :
    OverflowsAt start.toInt (e :: rest) 0 ↔ start.advance? e.2.size = none := by
  rw [← Option.not_isSome_iff_eq_none, Option.isSome_iff_exists, Offset.exists_advance?_iff,
    OverflowsAt]
  simp only [List.getElem?_cons_zero, Option.some.injEq, exists_eq_left', Nat.zero_add,
    List.take_succ_cons, List.take_zero, storageUnits_cons, storageUnits_nil]
  omega

/-- Whether the others fit depends on where the first variable ends. -/
theorem overflowsAt_succ_iff {start : Int} {rest : List (String × Slot)} :
    OverflowsAt start (e :: rest) (place + 1) ↔
      OverflowsAt (start + e.2.size.toNat) rest place := by
  rw [OverflowsAt, OverflowsAt]
  simp only [List.getElem?_cons_succ, List.take_succ_cons, storageUnits_cons, Int.natCast_add,
    Int.add_assoc]

/-- All variables fit exactly if each size does and the offset behind them all does. -/
theorem forall_not_overflowsAt_iff {start : Int} (hstart : start ≤ Int64.maxValue.toInt) :
    (∀ place, ¬ OverflowsAt start declared place) ↔
      (∀ e ∈ declared, (e.2.size.toNat : Int) ≤ Int64.maxValue.toInt) ∧
        start + storageUnits declared ≤ Int64.maxValue.toInt := by
  constructor
  · intro h
    refine ⟨?_, ?_⟩
    · intro e he
      obtain ⟨place, hplace⟩ := List.getElem?_of_mem he
      by_contra hsize
      exact h place ⟨e, hplace, .inl (by omega)⟩
    · -- The offset behind all variables is the one behind the last, if there is one.
      induction declared using List.reverseRecOn with
      | nil => simpa using hstart
      | append_singleton before e _ =>
        by_contra hstop
        refine h before.length ⟨e, List.getElem?_concat_length, .inr ?_⟩
        rw [List.take_of_length_le (by simp)]
        omega
  · rintro ⟨hsizes, hstop⟩ place ⟨e, he, hsize | hunits⟩
    · have := hsizes e (List.mem_of_getElem? he)
      omega
    · have := storageUnits_take_le_all declared (place + 1)
      omega

/-- **First fault.**  Placing variables fails with the first that does not fit. -/
theorem foldlM_place_eq_error_iff {layout : Layout} {fault : Fault} :
    (declared.foldlM (fun layout e => layout.place e.1 e.2) layout : Except Fault Layout) =
        .error fault ↔
      ∃ place name slot, declared[place]? = some (name, slot) ∧ fault = .memoryOverflow name ∧
        OverflowsAt layout.stop.toInt declared place ∧
          ∀ earlier < place, ¬ OverflowsAt layout.stop.toInt declared earlier := by
  induction declared generalizing layout with
  | nil =>
    simp only [List.foldlM_nil, List.getElem?_nil]
    simp [pure, Except.pure]
  | cons e rest ih =>
    obtain ⟨name, slot⟩ := e
    rw [List.foldlM_cons, Layout.place]
    have hfirst := @overflowsAt_zero_iff (name, slot) layout.stop rest
    cases hnext : layout.stop.advance? slot.size with
    | none =>
      have hzero := hfirst.mpr hnext
      constructor
      · intro h
        cases h
        exact ⟨0, name, slot, rfl, rfl, hzero, by simp⟩
      · rintro ⟨place, name', slot', hplace, rfl, -, hearlier⟩
        -- No place but the first has none before it that overflows.
        rcases place with _ | place
        · cases hplace
          rfl
        · exact absurd hzero (hearlier 0 (Nat.succ_pos place))
    | some next =>
      have hzero : ¬ OverflowsAt layout.stop.toInt ((name, slot) :: rest) 0 := by
        rw [hfirst, hnext]
        simp
      have hstop := (Offset.advance?_eq_some_iff.mp hnext).2
      show (rest.foldlM _ _ : Except Fault Layout) = _ ↔ _
      rw [ih]
      simp only [hstop, ← overflowsAt_succ_iff (e := (name, slot))]
      constructor
      · rintro ⟨place, name', slot', hplace, rfl, hover, hearlier⟩
        refine ⟨place + 1, name', slot', hplace, rfl, hover, ?_⟩
        rintro (_ | earlier) hlt
        · exact hzero
        · exact hearlier earlier (by omega)
      · rintro ⟨place, name', slot', hplace, rfl, hover, hearlier⟩
        rcases place with _ | place
        · exact absurd hover hzero
        · exact ⟨place, name', slot', hplace, rfl, hover, fun earlier hlt =>
            hearlier (earlier + 1) (by omega)⟩

/-! ## Variables back to back -/

/-- Variables that are placed from a cursor begin where the sizes before them end. -/
theorem base_of_placedFrom {cursor stop : Offset} {placed : List (String × Placement)}
    (h : placedFrom cursor declared = some (placed, stop)) {name : String} {placement : Placement}
    (hplace : placed[place]? = some (name, placement)) :
    placement.base.toInt = cursor.toInt + storageUnits (declared.take place) ∧
      placement.position = placement.base := by
  induction declared generalizing cursor placed place with
  | nil =>
    cases h
    simp at hplace
  | cons e rest ih =>
    obtain ⟨next, tail, hnext, htail, rfl⟩ := placedFrom_cons_eq_some_iff.mp h
    cases place with
    | zero =>
      cases hplace
      simp
    | succ place =>
      obtain ⟨hbase, hposition⟩ := ih htail hplace
      rw [(Offset.advance?_eq_some_iff.mp hnext).2] at hbase
      refine ⟨?_, hposition⟩
      rw [hbase, List.take_succ_cons, storageUnits_cons]
      omega

/-- The cursor ends behind all variables. -/
theorem stop_of_placedFrom {cursor stop : Offset} {placed : List (String × Placement)}
    (h : placedFrom cursor declared = some (placed, stop)) :
    stop.toInt = cursor.toInt + storageUnits declared := by
  induction declared generalizing cursor placed with
  | nil =>
    cases h
    simp
  | cons e rest ih =>
    obtain ⟨next, tail, hnext, htail, rfl⟩ := placedFrom_cons_eq_some_iff.mp h
    rw [ih htail, (Offset.advance?_eq_some_iff.mp hnext).2, storageUnits_cons]
    omega

/-- A layout that has the declared variables back to back from a base. -/
structure Layout.BackToBack (declarations : Declarations) (base : Offset) (layout : Layout) :
    Prop where
  /-- The declared variables are placed and no others, in the order of their declaration. -/
  keys_eq : layout.placements.keys = declarations.keys
  /-- A variable begins where the sizes before it end, and that is what is reported for it. -/
  placed : ∀ place name slot, declarations.entries[place]? = some (name, slot) → ∃ start,
    layout.base? name = some start ∧ layout.position? name = some start ∧
      start.toInt = base.toInt + storageUnits (declarations.entries.take place)
  /-- A name that is not declared has neither a base nor a position. -/
  unplaced : ∀ name, declarations.get? name = none →
    layout.base? name = none ∧ layout.position? name = none
  /-- The layout ends behind all variables. -/
  stop_eq : layout.stop.toInt = base.toInt + storageUnits declarations.entries

/-- A layout has the declared variables back to back. -/
theorem Declarations.backToBack_of_layout {declarations : Declarations} {base : Offset}
    {layout : Layout} (h : declarations.layout base = .ok layout) :
    layout.BackToBack declarations base := by
  obtain ⟨⟨placed, stop⟩, hplaced, hentries, hstop⟩ := (declarations.layout_agrees base).of_eq_ok h
  have hkeys := keys_of_layout h
  refine ⟨hkeys, ?_, ?_, ?_⟩
  · intro place name slot hplace
    have hname := congrArg (·[place]?) (names_of_placedFrom hplaced)
    simp only [List.getElem?_map, hplace, Option.map_some, Option.map_eq_some_iff] at hname
    obtain ⟨⟨name, placement⟩, hplacement, rfl⟩ := hname
    obtain ⟨hbase, hposition⟩ := base_of_placedFrom hplaced hplacement
    have hget : layout.placements.get? name = some placement := by
      rw [← OrderedMap.mem_entries_iff, hentries]
      exact List.mem_of_getElem? hplacement
    refine ⟨placement.base, ?_, ?_, hbase⟩
    · rw [Layout.base?, hget, Option.map_some]
    · rw [Layout.position?, hget, Option.map_some, hposition]
  · intro name hname
    have hnone : layout.placements.get? name = none := by
      rw [← Option.not_isSome_iff_eq_none] at hname ⊢
      rwa [← OrderedMap.contains, OrderedMap.contains_iff_mem_keys, hkeys,
        ← OrderedMap.contains_iff_mem_keys]
    exact ⟨by rw [Layout.base?, hnone, Option.map_none],
      by rw [Layout.position?, hnone, Option.map_none]⟩
  · rw [hstop]
    exact stop_of_placedFrom hplaced

namespace Layout.BackToBack

variable {declarations : Declarations} {base start start' : Offset} {layout : Layout}
  {name name' : String} {slot slot' : Slot}

/-- A declared variable has a place in the order of declaration, and its base is the one that
belongs to that place. -/
theorem exists_place (h : layout.BackToBack declarations base)
    (hslot : declarations.get? name = some slot) (hstart : layout.base? name = some start) :
    ∃ place, declarations.entries[place]? = some (name, slot) ∧
      start.toInt = base.toInt + storageUnits (declarations.entries.take place) := by
  obtain ⟨place, hplace⟩ := List.getElem?_of_mem (OrderedMap.mem_entries_iff.mpr hslot)
  obtain ⟨first, hfirst, -, hunits⟩ := h.placed place name slot hplace
  rw [hstart] at hfirst
  cases hfirst
  exact ⟨place, hplace, hunits⟩

/-- A slot lies between the base and the end of the layout. -/
theorem slot_subset (h : layout.BackToBack declarations base)
    (hslot : declarations.get? name = some slot) (hstart : layout.base? name = some start) :
    Set.Ico start.toInt (start.toInt + slot.size.toNat) ⊆
      Set.Ico base.toInt layout.stop.toInt := by
  obtain ⟨place, hplace, hunits⟩ := h.exists_place hslot hstart
  have hsucc := storageUnits_take_succ hplace
  have hall := storageUnits_take_le_all declarations.entries (place + 1)
  have hstop := h.stop_eq
  apply Set.Ico_subset_Ico <;> omega

/-- The slots of different variables have no unit in common. -/
theorem disjoint_slots (h : layout.BackToBack declarations base) (hne : name ≠ name')
    (hslot : declarations.get? name = some slot) (hstart : layout.base? name = some start)
    (hslot' : declarations.get? name' = some slot') (hstart' : layout.base? name' = some start') :
    Disjoint (Set.Ico start.toInt (start.toInt + slot.size.toNat))
      (Set.Ico start'.toInt (start'.toInt + slot'.size.toNat)) := by
  obtain ⟨place, hplace, hunits⟩ := h.exists_place hslot hstart
  obtain ⟨place', hplace', hunits'⟩ := h.exists_place hslot' hstart'
  have hsucc := storageUnits_take_succ hplace
  have hsucc' := storageUnits_take_succ hplace'
  rw [Set.disjoint_left]
  intro unit hunit hunit'
  rw [Set.mem_Ico] at hunit hunit'
  -- Whichever comes first ends where the other begins, or before.
  rcases Nat.lt_trichotomy place place' with hlt | rfl | hlt
  · have : storageUnits (declarations.entries.take (place + 1)) ≤ _ := storageUnits_take_le hlt
    omega
  · rw [hplace] at hplace'
    cases hplace'
    exact absurd rfl hne
  · have : storageUnits (declarations.entries.take (place' + 1)) ≤ _ := storageUnits_take_le hlt
    omega

end Layout.BackToBack

/-! ## The layout of a history -/

/-- There is a layout exactly if every size is one that an offset can have and the offset behind all
variables is. -/
theorem Declarations.exists_layout_iff (declarations : Declarations) (base : Offset) :
    (∃ layout, declarations.layout base = .ok layout) ↔
      (∀ e ∈ declarations.entries, (e.2.size.toNat : Int) ≤ Int64.maxValue.toInt) ∧
        base.toInt + storageUnits declarations.entries ≤ Int64.maxValue.toInt := by
  rw [← forall_not_overflowsAt_iff (Int64.toInt_le base)]
  have herror : ∀ fault, declarations.layout base = .error fault ↔ _ :=
    fun fault => foldlM_place_eq_error_iff
  constructor
  · rintro ⟨layout, hlayout⟩ place hover
    -- The first of the places that overflow would be at fault.
    classical
    have hex : ∃ place, OverflowsAt base.toInt declarations.entries place := ⟨place, hover⟩
    obtain ⟨⟨name, slot⟩, hfirst, -⟩ := Nat.find_spec hex
    have hfault := (herror (.memoryOverflow name)).mpr ⟨Nat.find hex, name, slot, hfirst, rfl,
      Nat.find_spec hex, fun earlier => Nat.find_min hex⟩
    rw [hlayout] at hfault
    cases hfault
  · intro hfits
    cases hlayout : declarations.layout base with
    | ok layout => exact ⟨layout, rfl⟩
    | error fault =>
      obtain ⟨place, -, -, -, -, hover, -⟩ := (herror fault).mp hlayout
      exact absurd hover (hfits place)

/-- **Slots of any history.**  Whatever is declared, in whatever order and however often, the table
holds each name once, at the place of its first declaration and with the storage of its last, and
each declaration has answered with the storage before it.  From any base there is a layout exactly
if every size and the offset behind all variables are offsets; it has the variables back to back, so
their slots lie between base and end and have no unit in common.  Otherwise the fault names the
first variable whose size or end is too high. -/
theorem layout_of_history (history : List (String × Slot)) (base : Offset) :
    ∃ answers declarations, Declarations.declareAll ∅ history = (answers, declarations) ∧
      declarations.keys = (history.map Prod.fst).eraseDups ∧
      (∀ name, declarations.get? name = lastDeclared? history name) ∧
      (∀ place, answers[place]? =
        history[place]?.map fun e => lastDeclared? (history.take place) e.1) ∧
      ((∃ layout, declarations.layout base = .ok layout) ↔
        (∀ e ∈ declarations.entries, (e.2.size.toNat : Int) ≤ Int64.maxValue.toInt) ∧
          base.toInt + storageUnits declarations.entries ≤ Int64.maxValue.toInt) ∧
      (∀ layout, declarations.layout base = .ok layout →
        layout.BackToBack declarations base ∧
        (∀ name slot start, declarations.get? name = some slot → layout.base? name = some start →
          Set.Ico start.toInt (start.toInt + slot.size.toNat) ⊆
            Set.Ico base.toInt layout.stop.toInt) ∧
        ∀ name slot start name' slot' start', name ≠ name' →
          declarations.get? name = some slot → layout.base? name = some start →
          declarations.get? name' = some slot' → layout.base? name' = some start' →
            Disjoint (Set.Ico start.toInt (start.toInt + slot.size.toNat))
              (Set.Ico start'.toInt (start'.toInt + slot'.size.toNat))) ∧
      ∀ fault, declarations.layout base = .error fault ↔
        ∃ place name slot, declarations.entries[place]? = some (name, slot) ∧
          fault = .memoryOverflow name ∧ OverflowsAt base.toInt declarations.entries place ∧
            ∀ earlier < place, ¬ OverflowsAt base.toInt declarations.entries earlier := by
  refine ⟨_, _, rfl, Declarations.keys_declareAll history, Declarations.get?_declareAll history, ?_,
    Declarations.exists_layout_iff _ base, ?_, fun fault => foldlM_place_eq_error_iff⟩
  · intro place
    rw [Declarations.getElem?_declareAll]
    congr 1
    funext e
    exact Declarations.get?_declareAll _ e.1
  · intro layout hlayout
    have hback := Declarations.backToBack_of_layout hlayout
    refine ⟨hback, fun name slot start => hback.slot_subset, ?_⟩
    intro name slot start name' slot' start' hne hslot hstart hslot' hstart'
    exact hback.disjoint_slots hne hslot hstart hslot' hstart'

/-- Declared again, an array takes the place of the scalar and moves the variable behind it. -/
example :
    let history := [("x", { kind := .scalar, size := 1 }), ("y", { kind := .string, size := 2 }),
      ("x", { kind := .array, size := 8 })]
    let declared := Declarations.declareAll ∅ history
    declared.1 = [none, none, some { kind := .scalar, size := 1 }] ∧
      (declared.2.layout (-3)).map
        (fun layout => (layout.base? "x", layout.base? "y", layout.stop)) =
        .ok (some (-3), some 5, 7) := by
  decide

end StackLinker
