/-
# What the stages leave alone

The stages of a pass edit payloads and addresses, and the payload of a node only if the node asks
for it: as a dependent of some variable, through its reference or as the carrier of a jump.  So
whatever stages and passes are run, in any order and whether they succeed or fail, all else about
the program stays, and a node that asks for nothing keeps its payload.
-/
import StackLinker.Proofs.Program.History
import StackLinker.Proofs.Storage.Dependents

namespace StackLinker

/-! ## Histories without edits -/

/-- Tells whether an operation is a stage, a pass or a check.  A storage plan may only be written if
it is one of the given ones. -/
def Operation.isStage (plans : List StoragePlan) : Operation → Bool
  | .applyPlan plan => plan ∈ plans
  | .planLayout _ | .planStorage _ | .assignStorage _ | .planAddresses _ | .assignAddresses _ _
  | .relocateJumps | .validate | .emit | .resolve _ => true
  | .push _ | .replace _ _ | .declare _ _ | .registerArray _ _ | .registerString _ _
  | .refill _ _ _ => false

namespace Program

/-- The storage plan that an operation computes, if it does. -/
def computedPlan? (program : Program) : Operation → Option StoragePlan
  | .planStorage base =>
    (planStorage program.declarations program.tables program.code base).toOption
  | _ => none

/-- Tells whether a history consists of stages, passes and checks, and writes only storage plans
that are given or that it has computed before. -/
def isStaged (program : Program) (plans : List StoragePlan) : List Operation → Bool
  | [] => true
  | operation :: rest =>
    operation.isStage plans &&
      (program.perform operation).2.isStaged
        ((program.computedPlan? operation).toList ++ plans) rest

/-! ## Frames -/

/-- Tells that a node asks for no payload: it depends on no variable, refers to none, and is named
by no jump as its carrier. -/
structure Bystander (program : Program) (id : NodeId) : Prop where
  independent : ∀ name slot, program.declarations.get? name = some slot →
    id ∉ slot.dependents program.tables name
  unreferring : ∀ n, program.code.get? id = some n → n.referenced? = none
  uncarried : ∀ place jump, program.code.get? place = some jump → jump.op.isJump = true →
    jump.carrier ≠ some id

/-- What two states of a program have in common if only stages lie between them: the skeleton of the
code, the variables, the tables and the payloads of all bystanders. -/
structure Spares (program program' : Program) : Prop where
  skeleton : program'.code.skeleton = program.code.skeleton
  declarations : program'.declarations = program.declarations
  tables : program'.tables = program.tables
  payload : ∀ id, program.Bystander id →
    (program'.code.get? id).bind Node.payload = (program.code.get? id).bind Node.payload

variable {program program' program'' : Program} {options : Options} {id : NodeId}

theorem Spares.refl (program : Program) : program.Spares program := ⟨rfl, rfl, rfl, fun _ _ => rfl⟩

/-- A bystander stays one. -/
theorem Spares.bystander (h : program.Spares program') (hid : program.Bystander id) :
    program'.Bystander id := by
  refine ⟨?_, ?_, ?_⟩
  · rw [h.declarations, h.tables]
    exact hid.independent
  · intro n' hn'
    obtain ⟨n, hn, hskeleton⟩ := Code.exists_of_skeleton_eq h.skeleton hn'
    have hreferenced : n'.referenced? = n.referenced? :=
      (congrArg Node.referenced? hskeleton).symm
    rw [hreferenced]
    exact hid.unreferring n hn
  · intro place jump' hjump' hisJump
    obtain ⟨jump, hjump, hskeleton⟩ := Code.exists_of_skeleton_eq h.skeleton hjump'
    have hop : jump.op = jump'.op := (congrArg Node.op hskeleton :)
    have hcarrier : jump.carrier = jump'.carrier := (congrArg Node.carrier hskeleton :)
    rw [← hop] at hisJump
    rw [← hcarrier]
    exact hid.uncarried place jump hjump hisJump

theorem Spares.trans (h : program.Spares program') (h' : program'.Spares program'') :
    program.Spares program'' :=
  ⟨h'.skeleton.trans h.skeleton, h'.declarations.trans h.declarations, h'.tables.trans h.tables,
    fun id hid => (h'.payload id (h.bystander hid)).trans (h.payload id hid)⟩

/-- A rewrite of each node that keeps its skeleton, and the payload of a bystander, spares the
program. -/
theorem spares_of_get? {f : NodeId → Node → Node}
    (hget : ∀ id, program'.code.get? id = (program.code.get? id).map (f id))
    (hskeleton : ∀ id n, (f id n).skeleton = n.skeleton)
    (hpayload : ∀ id n, program.Bystander id → program.code.get? id = some n →
      (f id n).payload = n.payload)
    (hdeclarations : program'.declarations = program.declarations)
    (htables : program'.tables = program.tables) : program.Spares program' := by
  refine ⟨Code.skeleton_eq_of_get? hget hskeleton, hdeclarations, htables, ?_⟩
  intro id hid
  rw [hget]
  cases hn : program.code.get? id with
  | none => rfl
  | some n => exact hpayload id n hid hn

/-- Writing payloads to nodes none of which is a bystander spares the program. -/
theorem spares_writeAll {writes : List (NodeId × Payload)}
    (h : ∀ id ∈ writes.map Prod.fst, ¬ program.Bystander id) :
    program.Spares { program with code := program.code.writeAll writes } := by
  refine spares_of_get? (program.code.get?_writeAll writes) (fun _ n => n.skeleton_overwrite _) ?_
    rfl rfl
  intro id n hid _
  have hunwritten : id ∉ writes.reverse.map Prod.fst := by
    rw [List.map_reverse, List.mem_reverse]
    exact fun hmem => h id hmem hid
  rw [OrderedMap.lookup_eq_none hunwritten, Node.overwrite_none]

/-- **Validation sees what is spared.**  The faults in the structure of a program are the same. -/
theorem Spares.faults_eq (h : program.Spares program') : program'.faults = program.faults := by
  have hcontains : program'.code.contains = program.code.contains :=
    Code.contains_eq_of_outline (Code.outline_eq_of_skeleton h.skeleton)
  have hnode : program'.nodeFaults = program.nodeFaults := by
    funext id n
    rw [nodeFaults, nodeFaults, h.declarations, hcontains]
  have hslot : program'.slotFaults = program.slotFaults := by
    funext name slot
    rw [slotFaults, slotFaults, hcontains]
  have hentry : program'.entryFaults = program.entryFaults := by
    funext name id
    rw [entryFaults, entryFaults, h.declarations, hcontains]
  -- References and links are read off the skeleton of a node.
  have hskeleton : ∀ code : Code, code.enumerate.flatMap (fun e => program.nodeFaults e.1 e.2) =
      code.skeleton.zipIdx.flatMap fun e => program.nodeFaults e.2 e.1 := by
    intro code
    rw [Code.enumerate, Code.skeleton, List.zipIdx_map, List.flatMap_map, List.flatMap_map]
    rfl
  rw [faults, faults, hnode, hslot, hentry, h.declarations, h.tables, hskeleton, hskeleton,
    h.skeleton]

/-! ## Single stages -/

/-- Tells that a plan has numbers only for nodes that depend on the place of a variable. -/
def WritesDependents (program : Program) (plan : StoragePlan) : Prop :=
  ∀ id, plan.writes.contains id = true → ∃ name slot,
    program.declarations.get? name = some slot ∧ id ∈ slot.dependents program.tables name

/-- A plan that is computed for a program is for its dependents. -/
theorem writesDependents_of_planStorage {base : Offset} {plan : StoragePlan}
    (h : planStorage program.declarations program.tables program.code base = .ok plan) :
    program.WritesDependents plan :=
  fun id hid => ((contains_writes_iff h id).mp hid).2

/-- Writing a plan for dependents spares the program. -/
theorem WritesDependents.spares {plan : StoragePlan} (h : program.WritesDependents plan) :
    program.Spares { program with code := plan.apply program.code } := by
  rw [plan.apply_eq_writeAll]
  apply spares_writeAll
  intro id hmem hid
  rw [List.map_map] at hmem
  obtain ⟨name, slot, hslot, hdependent⟩ :=
    h id ((plan.writes.contains_iff_mem_keys id).mpr hmem)
  exact hid.independent name slot hslot hdependent

/-- Planning and writing storage in one step spares the program, whether it succeeds or not. -/
theorem spares_assignStorage (program : Program) (base : Offset) :
    program.Spares { program with
      code := (assignStorage program.declarations program.tables program.code base).2 } := by
  rw [assignStorage]
  cases hplan : planStorage program.declarations program.tables program.code base with
  | error fault => exact .refl program
  | ok plan => exact (writesDependents_of_planStorage hplan).spares

/-- Assigning addresses spares the program, whatever the layout and whether it succeeds or not. -/
theorem spares_assignAddresses (program : Program) (layout : Layout) (base : Address) :
    program.Spares { program with code := (program.code.assignAddresses layout base).2 } := by
  cases hplan : program.code.planAddresses base with
  | error fault =>
    rw [Code.assignAddresses, hplan]
    exact .refl program
  | ok plan =>
    have hlength := (Code.covers_of_planAddresses hplan).length_addresses
    rw [Code.assignAddresses_of_planAddresses layout hplan]
    refine spares_of_get? (Code.get?_placeAll layout hlength) (fun _ _ => rfl) ?_ rfl rfl
    intro id n hid hn
    -- Without a reference there is nothing that the layout could report.
    have hreported : n.reported? layout = none := by
      rw [Node.reported?, hid.unreferring n hn]
      rfl
    rw [hreported, Node.overwrite_none]

/-- Relocating jumps spares the program, whether it succeeds or not: it writes to carriers of jumps
alone. -/
theorem spares_relocateJumps (program : Program) :
    program.Spares { program with code := program.code.relocateJumps.2 } := by
  rw [Code.relocateJumps]
  cases hpatches : Code.encodeSites program.code.jumpSites with
  | error fault => exact .refl program
  | ok patches =>
    show program.Spares { program with code := program.code.patch patches }
    rw [Code.patch_eq_writeAll]
    apply spares_writeAll
    intro id hmem hid
    rw [List.map_map] at hmem
    have hsites : id ∈ program.code.jumpSites.map JumpSite.carrier :=
      Code.carriers_of_encodeSites hpatches ▸ hmem
    obtain ⟨site, hsite, rfl⟩ := List.mem_map.mp hsites
    obtain ⟨jump, hjump, hsite⟩ := List.mem_filterMap.mp hsite
    obtain ⟨hisJump, -, -, hcarrier, -⟩ := Code.jumpSite?_eq_some_iff.mp hsite
    obtain ⟨place, hplace⟩ := List.getElem?_of_mem hjump
    exact hid.uncarried place jump hplace hisJump hcarrier

/-- A pass spares the program, whether it succeeds or not. -/
theorem spares_resolve (program : Program) (options : Options) :
    program.Spares (program.resolve options).2 := by
  cases hsummary : (program.resolve options).1 with
  | error fault =>
    rw [resolve_of_error hsummary]
    exact .refl program
  | ok summary =>
    have hresolve : program.resolve options = (.ok summary, (program.resolve options).2) :=
      Prod.ext hsummary rfl
    obtain ⟨plan, hsettles⟩ := (pass_of_resolve hresolve).settles
    refine spares_of_get? hsettles.get?_code (fun _ _ => rfl) ?_ (by rw [hsettles.frame])
      (by rw [hsettles.frame])
    intro id n hid hn
    have hcarried : program.code.carried? options.addressBase id = none := by
      rw [Code.carried?_eq_none_iff]
      intro place jump target hjump hjumps
      exact absurd hjumps.carrier (hid.uncarried place jump hjump hjumps.isJump)
    have hreported : n.reported? plan.layout = none := by
      rw [Node.reported?, hid.unreferring n hn]
      rfl
    have hplanned : plan.payload? id = none := by
      rw [StoragePlan.payload?, Option.map_eq_none_iff, ← Option.not_isSome_iff_eq_none]
      intro hwritten
      obtain ⟨name, slot, hslot, hdependent⟩ :=
        writesDependents_of_planStorage hsettles.planned id hwritten
      exact hid.independent name slot hslot hdependent
    show program.code.finalPayload plan options.addressBase id n = n.payload
    rw [Code.finalPayload, hcarried, hreported, hplanned]
    rfl

/-! ## Histories of stages -/

/-- **One operation.**  A stage, a pass or a check spares the program, if the plans that may be
written are for dependents. -/
theorem spares_perform {plans : List StoragePlan} {operation : Operation}
    (hplans : ∀ plan ∈ plans, program.WritesDependents plan)
    (h : operation.isStage plans = true) : program.Spares (program.perform operation).2 := by
  cases operation with
  | applyPlan plan => exact (hplans plan (of_decide_eq_true h)).spares
  | assignStorage base => exact program.spares_assignStorage base
  | assignAddresses layout base => exact program.spares_assignAddresses layout base
  | relocateJumps => exact program.spares_relocateJumps
  | resolve options => exact program.spares_resolve options
  | planLayout | planStorage | planAddresses | validate | emit => exact .refl program
  | push | replace | declare | registerArray | registerString | refill => cases h

/-- The plans that may be written after an operation are for dependents, as those before it. -/
theorem writesDependents_of_mem {plans : List StoragePlan} {operation : Operation}
    (hplans : ∀ plan ∈ plans, program.WritesDependents plan)
    (h : program.Spares (program.perform operation).2) {plan : StoragePlan}
    (hmem : plan ∈ (program.computedPlan? operation).toList ++ plans) :
    (program.perform operation).2.WritesDependents plan := by
  have hplan : program.WritesDependents plan := by
    rcases List.mem_append.mp hmem with hcomputed | hmem
    · cases operation with
      | planStorage base =>
        rw [computedPlan?, Option.mem_toList] at hcomputed
        cases hresult : planStorage program.declarations program.tables program.code base with
        | error fault =>
          rw [hresult] at hcomputed
          cases hcomputed
        | ok computed =>
          rw [hresult] at hcomputed
          cases hcomputed
          exact writesDependents_of_planStorage hresult
      | _ => cases hcomputed
    · exact hplans plan hmem
  rw [WritesDependents, h.declarations, h.tables]
  exact hplan

/-- **All operations.**  A history of stages spares the program. -/
theorem spares_run {plans : List StoragePlan} {history : List Operation}
    (hplans : ∀ plan ∈ plans, program.WritesDependents plan)
    (h : program.isStaged plans history = true) : program.Spares (program.run history) := by
  induction history generalizing program plans with
  | nil => exact .refl program
  | cons operation rest ih =>
    rw [isStaged, Bool.and_eq_true] at h
    have hstep := spares_perform hplans h.1
    rw [run_cons]
    exact hstep.trans (ih (fun _ => writesDependents_of_mem hplans hstep) h.2)

/-- The start of a history of stages is one. -/
theorem isStaged_of_append {plans : List StoragePlan} {before after : List Operation}
    (h : program.isStaged plans (before ++ after) = true) :
    program.isStaged plans before = true := by
  induction before generalizing program plans with
  | nil => rfl
  | cons operation rest ih =>
    rw [List.cons_append, isStaged, Bool.and_eq_true] at h
    rw [isStaged, Bool.and_eq_true]
    exact ⟨h.1, ih h.2⟩

/-- **Stages edit payloads and addresses alone.**  Throughout any history of stages, passes and
checks, with any bases and layouts and with plans that it has computed itself, the nodes stay as
many, and all that they hold but payloads and addresses stays, and so do the variables and the
tables.  So validation answers the same.  Every bystander keeps its payload. -/
theorem run_spares (before after : List Operation)
    (h : program.isStaged [] (before ++ after) = true) :
    program.Spares (program.run before) ∧
      (program.run before).code.size = program.code.size ∧
      (program.run before).validate = program.validate := by
  have hspares : program.Spares (program.run before) :=
    spares_run (by simp) (isStaged_of_append h)
  refine ⟨hspares, Code.size_eq_of_outline (Code.outline_eq_of_skeleton hspares.skeleton), ?_⟩
  rw [validate, validate, hspares.faults_eq]

/-- A text that nothing asks for, an array entry and the carrier of a jump back. -/
def remarked : Program where
  code := ⟨[
    { op := .target },
    { op := .push, payload := some (.literal (.text " raw ")), width := 3 },
    { op := .push, payload := some (.pending 2), width := 1 },
    { op := .push, width := 1 },
    { op := .jump, target := some 0, carrier := some 3 }]⟩
  declarations := OrderedMap.insert ∅ "a" { kind := .array, size := 4 }
  tables := { arrays := EntryTable.register ∅ "a" 2 }

/-- A plan that is computed and written twice, with other stages and two passes around. -/
def restaged : List Operation :=
  let plan : StoragePlan := ⟨⟨OrderedMap.insert ∅ "a" ⟨4, 4⟩, 8⟩, OrderedMap.insert ∅ 2 6⟩
  [.planStorage 4, .assignAddresses ⟨∅, 0⟩ 9, .applyPlan plan, .relocateJumps, .emit,
    .applyPlan plan, .resolve ⟨0, 8⟩, .validate, .resolve {}]

/-- The entry is shifted by the plan and again by the first pass, while the text stays as it was
given. -/
theorem remarked_spares :
    remarked.isStaged [] restaged = true ∧
    remarked.Bystander 1 ∧
    ((remarked.run restaged).code.get? 1).bind Node.payload = some (.literal (.text " raw ")) ∧
    ((remarked.run restaged).code.get? 2).bind Node.payload = some (.number 14) ∧
    (remarked.run restaged).validate = remarked.validate := by
  have hstaged : remarked.isStaged [] restaged = true := by decide
  have hbystander : remarked.Bystander 1 := by
    refine ⟨?_, ?_, ?_⟩
    · intro name slot hslot
      cases List.mem_singleton.mp (OrderedMap.mem_entries_iff.mpr hslot)
      decide
    · intro n hn
      cases hn
      rfl
    · intro place jump hjump
      have hjumps : ∀ n ∈ remarked.code.nodes, n.op.isJump = true → n.carrier ≠ some 1 := by decide
      exact hjumps jump (List.mem_of_getElem? hjump)
  have hspares : remarked.Spares (remarked.run restaged) ∧
      (remarked.run restaged).code.size = remarked.code.size ∧
        (remarked.run restaged).validate = remarked.validate :=
    run_spares restaged [] ((List.append_nil restaged).symm ▸ hstaged)
  exact ⟨hstaged, hbystander, hspares.1.payload 1 hbystander, by decide, hspares.2.2⟩

end Program

end StackLinker
