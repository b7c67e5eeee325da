/-
# Placing variables back to back

The layout of the declared variables is a plain recursion over their storage: each variable lies at
the cursor, and the next one after its size.  Names stay as they were declared.
-/
import StackLinker.Storage.Layout
import StackLinker.Proofs.Agreement
import StackLinker.Proofs.OrderedMap

namespace StackLinker

/-! ## Reported positions -/

namespace Layout

/-- Reporting another offset for a variable changes what is known of it alone. -/
theorem get?_report (layout : Layout) (name : String) (position : Offset) (name' : String) :
    (layout.report name position).placements.get? name' =
      if name' = name then
        (layout.placements.get? name).map fun placement => { placement with position }
      else layout.placements.get? name' := by
  rw [report]
  split
  · rename_i placement hplacement
    rw [OrderedMap.get?_insert, hplacement, Option.map_some]
  · rename_i hnone
    rw [hnone, Option.map_none]
    split
    · rename_i hname
      rw [hname, hnone]
    · rfl

/-- Reporting a position keeps the bases. -/
theorem base?_report (layout : Layout) (name : String) (position : Offset) (name' : String) :
    (layout.report name position).base? name' = layout.base? name' := by
  rw [base?, base?, get?_report]
  split
  · rename_i hname
    rw [hname, Option.map_map]
    rfl
  · rfl

/-- Reporting another offset for a variable that has a place reports it, and keeps what is reported
for the others. -/
theorem position?_report {layout : Layout} {name : String} {base : Offset}
    (h : layout.base? name = some base) (position : Offset) (name' : String) :
    (layout.report name position).position? name' =
      if name' = name then some position else layout.position? name' := by
  obtain ⟨placement, hplacement, -⟩ := Option.map_eq_some_iff.mp h
  rw [position?, position?, get?_report, hplacement]
  split <;> rfl

/-- Reporting a position keeps the end of the layout. -/
theorem stop_report (layout : Layout) (name : String) (position : Offset) :
    (layout.report name position).stop = layout.stop := by
  rw [report]
  split <;> rfl

end Layout

/-! ## Placements from a cursor -/

/-- The placements of variables one after the other from a cursor, and the offset after the last. -/
def placedFrom : Offset → List (String × Slot) → Option (List (String × Placement) × Offset)
  | cursor, [] => some ([], cursor)
  | cursor, (name, slot) :: rest =>
    (cursor.advance? slot.size).bind fun next =>
      (placedFrom next rest).map fun placed => ((name, ⟨cursor, cursor⟩) :: placed.1, placed.2)

/-- What is placed with a first variable and others. -/
theorem placedFrom_cons_eq_some_iff {cursor stop : Offset} {name : String} {slot : Slot}
    {rest : List (String × Slot)} {placed : List (String × Placement)} :
    placedFrom cursor ((name, slot) :: rest) = some (placed, stop) ↔
      ∃ next tail, cursor.advance? slot.size = some next ∧
        placedFrom next rest = some (tail, stop) ∧ placed = (name, ⟨cursor, cursor⟩) :: tail := by
  rw [placedFrom]
  simp only [Option.bind_eq_some_iff, Option.map_eq_some_iff, Prod.mk.injEq, Prod.exists]
  constructor
  · rintro ⟨next, hnext, tail, _, htail, rfl, rfl⟩
    exact ⟨next, tail, hnext, htail, rfl⟩
  · rintro ⟨next, tail, hnext, htail, rfl⟩
    exact ⟨next, hnext, tail, stop, htail, rfl, rfl⟩

/-- Placements keep the names of the variables, in order. -/
theorem names_of_placedFrom {cursor stop : Offset} {declared : List (String × Slot)}
    {placed : List (String × Placement)} (h : placedFrom cursor declared = some (placed, stop)) :
    placed.map Prod.fst = declared.map Prod.fst := by
  induction declared generalizing cursor placed with
  | nil =>
    cases h
    rfl
  | cons e rest ih =>
    obtain ⟨name, slot⟩ := e
    obtain ⟨next, tail, -, htail, rfl⟩ := placedFrom_cons_eq_some_iff.mp h
    rw [List.map_cons, List.map_cons, ih htail]

/-! ## The layout -/

/-- Placing variables with new names puts their placements after those of the layout. -/
theorem foldlM_place_agrees {declared : List (String × Slot)} {layout : Layout}
    (hnames : (layout.placements.keys ++ declared.map Prod.fst).Nodup) :
    Agrees (fun extended placed =>
        extended.placements.entries = layout.placements.entries ++ placed.1 ∧
          extended.stop = placed.2)
      (declared.foldlM (fun layout e => layout.place e.1 e.2) layout : Except Fault Layout)
      (placedFrom layout.stop declared) := by
  induction declared generalizing layout with
  | nil =>
    refine .ok ⟨?_, rfl⟩
    exact (List.append_nil _).symm
  | cons e rest ih =>
    obtain ⟨name, slot⟩ := e
    rw [List.foldlM_cons, placedFrom, Layout.place]
    cases hnext : layout.stop.advance? slot.size with
    | none => exact .error
    | some next =>
      have hnew : name ∉ layout.placements.keys := by
        intro hmem
        exact (List.nodup_append.mp hnames).2.2 name hmem name List.mem_cons_self rfl
      have hentries : (layout.placements.insert name ⟨layout.stop, layout.stop⟩).entries =
          layout.placements.entries ++ [(name, ⟨layout.stop, layout.stop⟩)] :=
        OrderedMap.insertEntry_of_notMem _ hnew
      have hkeys : ((layout.placements.insert name ⟨layout.stop, layout.stop⟩).keys ++
          rest.map Prod.fst).Nodup := by
        rw [OrderedMap.keys_insert, if_neg hnew, List.append_assoc]
        exact hnames
      have hrest := @ih ⟨layout.placements.insert name ⟨layout.stop, layout.stop⟩, next⟩ hkeys
      refine hrest.map_right ?_
      rintro placed ⟨tail, stop⟩ ⟨htail, hstop⟩
      refine ⟨?_, hstop⟩
      rw [htail, hentries, List.append_assoc, List.singleton_append]

/-- The layout of declarations is their placements from the base. -/
theorem Declarations.layout_agrees (declarations : Declarations) (base : Offset) :
    Agrees (fun layout placed => layout.placements.entries = placed.1 ∧ layout.stop = placed.2)
      (declarations.layout base) (placedFrom base declarations.entries) :=
  @foldlM_place_agrees declarations.entries ⟨∅, base⟩ declarations.nodup_keys

/-- A layout places the declared variables, in the order of their declaration. -/
theorem Declarations.keys_of_layout {declarations : Declarations} {base : Offset} {layout : Layout}
    (h : declarations.layout base = .ok layout) : layout.placements.keys = declarations.keys := by
  obtain ⟨⟨placed, stop⟩, hplaced, hentries, -⟩ := (declarations.layout_agrees base).of_eq_ok h
  rw [OrderedMap.keys, OrderedMap.keys, hentries]
  exact names_of_placedFrom hplaced

end StackLinker
