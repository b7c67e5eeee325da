/-
# The storage sweep

Placing variables and rewriting what depends on them can be done in one loop over the declarations:
a cursor moves over the storage, and at each variable the payloads that depend on it are overwritten
at once.  The planned assignment makes all placements first, keeps its numbers apart from the code
and writes them at the end.  Main statement: both succeed on the same inputs and leave the same
code, the same bases, the same reported positions and the same end, also where several variables
shift or reset one node.
-/
import StackLinker.Proofs.Storage.Layout
import StackLinker.Proofs.Storage.Plan

namespace StackLinker

/-! ## One loop -/

/-- How far the loop has come. -/
structure Sweep where
  code : Code
  /-- The variables placed so far, with their bases and reported positions. -/
  placements : List (String × Placement)
  cursor : Offset
  deriving DecidableEq

/-- Overwrites an entry with its current number and the base.  The second part of the state is the
last number written; an entry outside the code is passed over. -/
def Code.shiftEntry (base : Offset) (state : Code × Offset) (id : NodeId) :
    Option (Code × Offset) :=
  match state.1.get? id with
  | none => some state
  | some n =>
    (n.relativeOffset.add? base).map fun value => (state.1.setPayload id (.number value), value)

/-- Overwrites what depends on one variable with the given base.  The second part of the answer is
the position that is reported for the variable. -/
def Code.rewriteSlot (tables : EntryTables) (name : String) (slot : Slot) (base : Offset)
    (code : Code) : Option (Code × Offset) :=
  match slot.kind with
  | .array =>
    ((tables.arrays.entriesOf name).foldlM (Code.shiftEntry base) (code, base)).map
      fun shifted => (shifted.1, base)
  | .string => (tables.strings.entriesOf name).foldlM (Code.shiftEntry base) (code, base)
  | .scalar | .other =>
    match slot.link with
    | some id => some (if code.contains id then code.setPayload id (.number base) else code, base)
    | none => some (code, base)

/-- Rewrites what depends on the next variable, then moves the cursor over its storage. -/
def Sweep.step (tables : EntryTables) (sweep : Sweep) (declared : String × Slot) : Option Sweep :=
  (sweep.code.rewriteSlot tables declared.1 declared.2 sweep.cursor).bind fun rewritten =>
    (sweep.cursor.advance? declared.2.size).map fun next =>
      ⟨rewritten.1, sweep.placements ++ [(declared.1, ⟨sweep.cursor, rewritten.2⟩)], next⟩

/-- The loop over the declared variables from a base. -/
def sweepStorage (declarations : Declarations) (tables : EntryTables) (code : Code)
    (base : Offset) : Option Sweep :=
  declarations.entries.foldlM (Sweep.step tables) ⟨code, [], base⟩

/-! ## What one step does -/

/-- A step rewrites one variable's payloads and moves the cursor over its storage. -/
theorem Sweep.step_eq_some_iff {tables : EntryTables} {sweep sweep' : Sweep} {name : String}
    {slot : Slot} :
    sweep.step tables (name, slot) = some sweep' ↔ ∃ code position next,
      sweep.code.rewriteSlot tables name slot sweep.cursor = some (code, position) ∧
        sweep.cursor.advance? slot.size = some next ∧
          sweep' = ⟨code, sweep.placements ++ [(name, ⟨sweep.cursor, position⟩)], next⟩ := by
  rw [step]
  simp only [Option.bind_eq_some_iff, Option.map_eq_some_iff, Prod.exists]
  constructor
  · rintro ⟨code, position, hcode, next, hnext, rfl⟩
    exact ⟨code, position, next, hcode, hnext, rfl⟩
  · rintro ⟨code, position, next, hcode, hnext, rfl⟩
    exact ⟨code, position, hcode, next, hnext, rfl⟩

/-- The loop moves the cursor as the placements do. -/
theorem exists_placedFrom_of_foldlM_step {tables : EntryTables} {declared : List (String × Slot)}
    {sweep sweep' : Sweep} (h : declared.foldlM (Sweep.step tables) sweep = some sweep') :
    ∃ placed, placedFrom sweep.cursor declared = some (placed, sweep'.cursor) := by
  induction declared generalizing sweep with
  | nil =>
    cases h
    exact ⟨[], rfl⟩
  | cons e rest ih =>
    obtain ⟨name, slot⟩ := e
    rw [List.foldlM_cons] at h
    obtain ⟨middle, hmiddle, hrest⟩ := Option.bind_eq_some_iff.mp h
    obtain ⟨code, position, next, -, hnext, rfl⟩ := Sweep.step_eq_some_iff.mp hmiddle
    obtain ⟨tail, htail⟩ := ih hrest
    exact ⟨_, placedFrom_cons_eq_some_iff.mpr ⟨next, tail, hnext, htail, rfl⟩⟩

/-- The loop places the variables under their names, in order. -/
theorem names_foldlM_step {tables : EntryTables} {declared : List (String × Slot)}
    {sweep sweep' : Sweep} (h : declared.foldlM (Sweep.step tables) sweep = some sweep') :
    sweep'.placements.map Prod.fst = sweep.placements.map Prod.fst ++ declared.map Prod.fst := by
  induction declared generalizing sweep with
  | nil =>
    cases h
    exact (List.append_nil _).symm
  | cons e rest ih =>
    obtain ⟨name, slot⟩ := e
    rw [List.foldlM_cons] at h
    obtain ⟨middle, hmiddle, hrest⟩ := Option.bind_eq_some_iff.mp h
    obtain ⟨code, position, next, -, -, rfl⟩ := Sweep.step_eq_some_iff.mp hmiddle
    rw [ih hrest, List.map_append, List.append_assoc]
    rfl

/-! ## Planning follows the loop -/

/-- A plan has come as far as the loop within one variable: its numbers, once written, give the code
as rewritten, and its layout holds the variable's placement between those before and after it. -/
structure StoragePlan.Tracks (code : Code) (before after : List (String × Placement))
    (stop : Offset)
    (name : String) (plan : StoragePlan) (placement : Placement) (rewritten : Code) : Prop where
  /-- The plan writes what the loop has written. -/
  apply_eq : plan.apply code = rewritten
  /-- The variable is placed between the others. -/
  entries_eq : plan.layout.placements.entries = before ++ (name, placement) :: after
  /-- The end of the layout is known from the start. -/
  stop_eq : plan.layout.stop = stop

variable {code rewritten : Code} {before after : List (String × Placement)} {stop : Offset}
  {name : String} {plan : StoragePlan}

/-- Reporting a position changes the placement of that variable alone. -/
theorem Layout.entries_report {layout : Layout} {placement : Placement}
    (h : layout.placements.entries = before ++ (name, placement) :: after) (position : Offset) :
    (layout.report name position).placements.entries =
      before ++ (name, { placement with position }) :: after := by
  rw [report, OrderedMap.get?_of_entries h]
  exact OrderedMap.entries_insert_of_entries h _

/-- **One entry.**  Planning a shift reads the number that the loop finds in the code, and fails
when the loop does. -/
theorem StoragePlan.shift_agrees {base : Offset} (reporting : Bool) {state : Code × Offset}
    (h : plan.Tracks code before after stop name ⟨base, if reporting then state.2 else base⟩
      state.1)
    (id : NodeId) :
    Agrees (fun plan' state' => plan'.Tracks code before after stop name
        ⟨base, if reporting then state'.2 else base⟩ state'.1)
      (plan.shift code name base reporting id) (Code.shiftEntry base state id) := by
  have hget : state.1.get? id = (code.get? id).map fun n => n.overwrite (plan.payload? id) := by
    rw [← h.apply_eq, get?_apply]
  rw [shift, Code.shiftEntry, hget]
  cases code.get? id with
  | none => exact .ok h
  | some n =>
    simp only [Option.map_some, ← plan.relative_eq id n]
    cases (plan.relative id n).add? base with
    | none => exact .error
    | some value =>
      -- The loop writes the sum into the code and the plan writes it beside.
      refine .ok ⟨?_, ?_, ?_⟩
      · show (plan.write id value).apply code = _
        rw [apply_write, h.apply_eq]
      · cases reporting with
        | false => exact h.entries_eq
        | true => exact Layout.entries_report h.entries_eq value
      · cases reporting with
        | false => exact h.stop_eq
        | true => exact (Layout.stop_report _ name value).trans h.stop_eq

/-- **One variable.**  Planning what depends on a variable follows the loop, whatever its kind. -/
theorem StoragePlan.visit_agrees (tables : EntryTables) (slot : Slot) {base : Offset}
    (h : plan.Tracks code before after stop name ⟨base, base⟩ rewritten) :
    Agrees (fun plan' result => plan'.Tracks code before after stop name ⟨base, result.2⟩ result.1)
      (visit code tables plan (name, slot)) (rewritten.rewriteSlot tables name slot base) := by
  have hbase : plan.layout.base? name = some base := by
    rw [Layout.base?, OrderedMap.get?_of_entries h.entries_eq]
    rfl
  rw [visit, Code.rewriteSlot]
  simp only [hbase]
  -- Scalars and variables of no special kind are treated alike.
  have hlink : Agrees
      (fun plan' result => plan'.Tracks code before after stop name ⟨base, result.2⟩ result.1)
      (match slot.link with
        | some id => .ok (if code.contains id then plan.write id base else plan)
        | none => .ok plan : Except Fault StoragePlan)
      (match slot.link with
        | some id =>
          some (if rewritten.contains id then rewritten.setPayload id (.number base)
            else rewritten, base)
        | none => some (rewritten, base)) := by
    cases slot.link with
    | none => exact .ok h
    | some id =>
      have hcontains : rewritten.contains = code.contains := by
        rw [← h.apply_eq]
        exact Code.contains_eq_of_outline (plan.outline_apply code)
      simp only [hcontains]
      refine .ok ?_
      split
      · refine ⟨?_, h.entries_eq, h.stop_eq⟩
        rw [apply_write, h.apply_eq]
      · exact h
  cases slot.kind with
  | array =>
    refine Agrees.map_right ?_ fun _ _ => id
    exact Agrees.foldlM (fun _ _ id h' => shift_agrees false h' id) _ h
  | string => exact Agrees.foldlM (fun _ _ id h' => shift_agrees true h' id) _ h
  | scalar => exact hlink
  | other => exact hlink

/-! ## The whole loop -/

/-- The state of the loop that a plan stands for. -/
def StoragePlan.toSweep (code : Code) (plan : StoragePlan) : Sweep :=
  ⟨plan.apply code, plan.layout.placements.entries, plan.layout.stop⟩

/-- **All variables.**  If the layout holds what the loop has placed and what it still will place,
visiting the remaining variables follows the loop to its end. -/
theorem StoragePlan.foldlM_visit_agrees (tables : EntryTables) {declared : List (String × Slot)}
    {sweep : Sweep} {pending : List (String × Placement)}
    (hplaced : placedFrom sweep.cursor declared = some (pending, plan.layout.stop))
    (happly : plan.apply code = sweep.code)
    (hentries : plan.layout.placements.entries = sweep.placements ++ pending) :
    Agrees (fun plan' sweep' => plan'.toSweep code = sweep')
      (declared.foldlM (visit code tables) plan) (declared.foldlM (Sweep.step tables) sweep) := by
  induction declared generalizing plan sweep pending with
  | nil =>
    obtain ⟨rfl, hstop⟩ := Prod.mk.inj (Option.some.inj hplaced)
    refine .ok ?_
    rw [toSweep, happly, hentries, ← hstop, List.append_nil]
  | cons e rest ih =>
    obtain ⟨name, slot⟩ := e
    obtain ⟨next, tail, hnext, htail, rfl⟩ := placedFrom_cons_eq_some_iff.mp hplaced
    have hvisit := visit_agrees tables slot ⟨happly, hentries, rfl⟩
    have hstep : sweep.step tables (name, slot) =
        (sweep.code.rewriteSlot tables name slot sweep.cursor).map fun rewritten =>
          ⟨rewritten.1, sweep.placements ++ [(name, ⟨sweep.cursor, rewritten.2⟩)], next⟩ := by
      rw [Sweep.step, hnext]
      exact Option.map_eq_bind.symm
    rw [List.foldlM_cons, List.foldlM_cons, hstep]
    -- The placement of this variable moves from the pending ones to those that are done.
    refine Agrees.bind (R := fun plan' sweep' => sweep'.cursor = next ∧
      plan'.layout.stop = plan.layout.stop ∧ plan'.apply code = sweep'.code ∧
        plan'.layout.placements.entries = sweep'.placements ++ tail) ?_ ?_
    · refine hvisit.map_right ?_
      rintro plan' ⟨code', position⟩ h
      refine ⟨rfl, h.stop_eq, h.apply_eq, ?_⟩
      rw [h.entries_eq, List.append_assoc, List.singleton_append]
    · rintro plan' sweep' ⟨hcursor, hstop, happly', hentries'⟩
      refine ih ?_ happly' hentries'
      rw [hcursor, hstop]
      exact htail

/-- A plan is made exactly when the loop runs through, and stands for the state of the loop. -/
theorem planStorage_agrees (declarations : Declarations) (tables : EntryTables) (code : Code)
    (base : Offset) :
    Agrees (fun plan sweep => plan.toSweep code = sweep)
      (planStorage declarations tables code base) (sweepStorage declarations tables code base) := by
  have hlayout := declarations.layout_agrees base
  rw [planStorage]
  cases hresult : declarations.layout base with
  | error fault =>
    -- The loop would have moved its cursor over the storage that could not be placed.
    have hplaced : placedFrom base declarations.entries = none := by
      rw [hresult] at hlayout
      generalize placedFrom base declarations.entries = placed at hlayout
      cases hlayout
      rfl
    have hsweep : sweepStorage declarations tables code base = none := by
      rw [Option.eq_none_iff_forall_ne_some]
      intro sweep hsome
      obtain ⟨placed, hsome'⟩ := exists_placedFrom_of_foldlM_step hsome
      rw [hplaced] at hsome'
      cases hsome'
    rw [hsweep]
    exact .error
  | ok layout =>
    obtain ⟨⟨placed, stop⟩, hplaced, hentries, hstop⟩ := hlayout.of_eq_ok hresult
    have hpending : layout.placements.entries = [] ++ placed := hentries
    rw [sweepStorage]
    refine StoragePlan.foldlM_visit_agrees tables ?_ rfl hpending
    rw [hplaced, hstop]

/-- **Planning first changes nothing.**  Planning all numbers and then writing them succeeds exactly
when the one loop over the declarations does, and leaves the same code, the same bases and reported
positions in the same order, and the same end.  Where both fail, the code is left as it was. -/
theorem assignStorage_eq_sweepStorage (declarations : Declarations) (tables : EntryTables)
    (code : Code) (base : Offset) :
    match assignStorage declarations tables code base with
    | (.ok layout, left) =>
      sweepStorage declarations tables code base =
        some ⟨left, layout.placements.entries, layout.stop⟩
    | (.error _, left) => sweepStorage declarations tables code base = none ∧ left = code := by
  have hagrees := planStorage_agrees declarations tables code base
  rw [assignStorage, ← hagrees.toOption_map]
  cases planStorage declarations tables code base with
  | ok plan => rfl
  | error fault => exact ⟨rfl, rfl⟩

/-! ## Names -/

/-- A plan places the declared variables, in the order of their declaration. -/
theorem keys_of_planStorage {declarations : Declarations} {tables : EntryTables} {code : Code}
    {base : Offset} {plan : StoragePlan}
    (h : planStorage declarations tables code base = .ok plan) :
    plan.layout.placements.keys = declarations.keys := by
  obtain ⟨sweep, hsweep, rfl⟩ := (planStorage_agrees declarations tables code base).of_eq_ok h
  exact names_foldlM_step hsweep

/-- A plan reports a position for the declared variables and for no others. -/
theorem isSome_position?_of_planStorage {declarations : Declarations} {tables : EntryTables}
    {code : Code} {base : Offset} {plan : StoragePlan}
    (h : planStorage declarations tables code base = .ok plan) (name : String) :
    (plan.layout.position? name).isSome = declarations.contains name := by
  rw [Layout.position?, Option.isSome_map, Bool.eq_iff_iff]
  show plan.layout.placements.contains name = true ↔ _
  rw [OrderedMap.contains_iff_mem_keys, OrderedMap.contains_iff_mem_keys, keys_of_planStorage h]

end StackLinker
