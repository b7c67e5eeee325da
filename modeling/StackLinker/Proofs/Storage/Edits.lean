/-
# Plans for code that is edited after

A plan names nodes by their places, and has numbers only for places in the code that it was made
for.  Code loses no place when it is edited: nodes are added at the end, replaced or revised.  So a
plan can be written to the code as it is later, and no number goes astray.
-/
import StackLinker.Proofs.Places
import StackLinker.Proofs.Storage.ClosedForm

namespace StackLinker

/-! ## Edits -/

/-- A change of code by hand. -/
inductive Edit where
  | push (n : Node)
  | replace (id : NodeId) (n : Node)
  /-- Changes the fields of a node. -/
  | revise (id : NodeId) (change : Node → Node)

namespace Code

/-- The code after an edit; one at a place outside changes nothing. -/
def edit (code : Code) : Edit → Code
  | .push n => code.push n
  | .replace id n => code.set id n
  | .revise id change => ⟨code.nodes.modify id change⟩

/-- The code after edits in order. -/
def editAll (code : Code) (edits : List Edit) : Code := edits.foldl edit code

/-- An edit takes no place from the code. -/
theorem size_le_edit (code : Code) (change : Edit) : code.size ≤ (code.edit change).size := by
  cases change with
  | push n => simp [edit, push, size]
  | replace id n => simp [edit, set, size]
  | revise id change => simp [edit, size]

/-- Edits take no place from the code. -/
theorem size_le_editAll (code : Code) (edits : List Edit) :
    code.size ≤ (code.editAll edits).size := by
  induction edits generalizing code with
  | nil => exact Nat.le_refl _
  | cons change rest ih => exact Nat.le_trans (code.size_le_edit change) (ih (code.edit change))

/-- A place in the code is in the code after edits. -/
theorem contains_editAll {code : Code} {id : NodeId} (h : code.contains id = true)
    (edits : List Edit) :
    (code.editAll edits).contains id = true :=
  decide_eq_true (Nat.lt_of_lt_of_le (of_decide_eq_true h) (code.size_le_editAll edits))

end Code

/-! ## Writing a plan later -/

namespace StoragePlan

/-- Writes a plan to code; with the code comes the layout of the plan. -/
def carryOut (plan : StoragePlan) (code : Code) : Code × Layout := (plan.apply code, plan.layout)

variable {plan : StoragePlan} {code : Code} {id : NodeId}

/-- A planned number is what a node in the code carries when the plan is written; all else about the
node stays. -/
theorem exists_get?_apply {value : Offset} (hid : code.contains id = true)
    (hvalue : plan.writes.get? id = some value) : ∃ n, code.get? id = some n ∧
      (plan.apply code).get? id = some { n with payload := some (.number value) } := by
  obtain ⟨n, hn⟩ := (code.contains_iff_get? id).mp hid
  refine ⟨n, hn, ?_⟩
  rw [get?_apply, hn, payload?, hvalue]
  rfl

/-- A node without a planned number stays when the plan is written. -/
theorem get?_apply_of_none (hid : plan.writes.get? id = none) :
    (plan.apply code).get? id = code.get? id := by
  rw [get?_apply, payload?, hid]
  cases code.get? id <;> rfl

/-- If all planned places lie in the code, there are as many nodes with a planned number as there
are numbers. -/
theorem card_planned (h : ∀ id, plan.writes.contains id = true → code.contains id = true) :
    ((Finset.range code.size).filter fun id => plan.writes.contains id = true).card =
      plan.writes.size := by
  have hkeys : ((Finset.range code.size).filter fun id => plan.writes.contains id = true) =
      plan.writes.keys.toFinset :=
    filter_range_eq_toFinset (fun id => plan.writes.contains_iff_mem_keys id) fun id hid =>
      of_decide_eq_true (h id hid)
  have hnodup : plan.writes.keys.Nodup := plan.writes.nodup_keys
  rw [hkeys, List.toFinset_card_of_nodup hnodup]
  exact List.length_map _

end StoragePlan

variable {declarations : Declarations} {tables : EntryTables} {code : Code} {base : Offset}
  {plan : StoragePlan}

/-- **A plan outlives edits.**  However code is edited after a plan was made for it, all planned
places lie in it, and carrying out the plan writes each planned number and nothing else: as many
nodes as there are numbers.  The layout is the one of the plan. -/
theorem planStorage_outlives_edits (h : planStorage declarations tables code base = .ok plan)
    (edits : List Edit) :
    let later := code.editAll edits
    ∃ written, plan.carryOut later = (written, plan.layout) ∧
      (∀ id, plan.writes.contains id = true → later.contains id = true) ∧
      (∀ id value, plan.writes.get? id = some value → ∃ n, later.get? id = some n ∧
        written.get? id = some { n with payload := some (.number value) }) ∧
      (∀ id, plan.writes.get? id = none → written.get? id = later.get? id) ∧
      ((Finset.range later.size).filter fun id => plan.writes.contains id = true).card =
        plan.writes.size := by
  intro later
  have hplanned : ∀ id, plan.writes.contains id = true → later.contains id = true := by
    intro id hid
    exact Code.contains_editAll ((contains_writes_iff h id).mp hid).1 edits
  refine ⟨plan.apply later, rfl, hplanned, ?_, fun _ => StoragePlan.get?_apply_of_none,
    StoragePlan.card_planned hplanned⟩
  intro id value hvalue
  refine StoragePlan.exists_get?_apply (hplanned id ?_) hvalue
  rw [OrderedMap.contains, hvalue]
  rfl

/-- The string's third dependent lies outside the code that the plan is for.  After the edits it
lies inside, and there is no number for it. -/
theorem sharedPlan_outlives_edits : ∃ plan written,
    planStorage sharedDeclarations sharedTables sharedCode 10 = .ok plan ∧
    plan.carryOut (sharedCode.editAll (.replace 0 { op := .neg, width := 7 } ::
      .revise 1 (fun n => { n with address := some 5 }) ::
        List.replicate 7 (.push { op := .pop }))) = (written, plan.layout) ∧
    written.get? 0 = some { op := .neg, payload := some (.number 29), width := 7 } ∧
    written.get? 1 =
      some { op := .push, payload := some (.number 15), width := 1, address := some 5 } ∧
    written.get? 9 = some { op := .pop } := by
  obtain ⟨plan, hplan⟩ :
      ∃ plan, planStorage sharedDeclarations sharedTables sharedCode 10 = .ok plan := ⟨_, rfl⟩
  have hnumbers : (planStorage sharedDeclarations sharedTables sharedCode 10).map
      (fun plan => [0, 1, 9].map plan.writes.get?) = .ok [some 29, some 15, none] := by decide
  rw [hplan] at hnumbers
  have hlist := Except.ok.inj hnumbers
  simp only [List.map_cons, List.map_nil, List.cons.injEq] at hlist
  obtain ⟨hfirst, hsecond, hthird, -⟩ := hlist
  obtain ⟨written, hwritten, -, hvalue, hother, -⟩ :=
    planStorage_outlives_edits hplan (.replace 0 { op := .neg, width := 7 } ::
      .revise 1 (fun n => { n with address := some 5 }) :: List.replicate 7 (.push { op := .pop }))
  refine ⟨plan, written, hplan, hwritten, ?_, ?_, (hother 9 hthird).trans rfl⟩
  · obtain ⟨n, hn, hget⟩ := hvalue 0 29 hfirst
    obtain rfl := Option.some.inj hn
    exact hget
  · obtain ⟨n, hn, hget⟩ := hvalue 1 15 hsecond
    obtain rfl := Option.some.inj hn
    exact hget

end StackLinker
