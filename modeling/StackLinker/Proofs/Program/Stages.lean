/-
# Stage by stage

The stages of a pass can be run by hand, one after the other on a copy of the code.  Run by hand,
each stage plans on the code that the stage before it has rewritten, while a pass makes both its
plans on the code as it was.  Main statement: this makes no difference, neither to the code, the
layout and the summary nor to the fault.
-/
import StackLinker.Proofs.Program.Resolve

namespace StackLinker

/-- What the stages leave when they are run by hand. -/
structure StagedRun where
  code : Code
  layout : Layout
  addressStop : Address
  relocated : Nat
  deriving DecidableEq

namespace Program

/-- Runs the stages on a copy of the code, each on what the stage before it has left. -/
def runStages (program : Program) (options : Options) : Except Fault StagedRun :=
  match assignStorage program.declarations program.tables program.code options.memoryBase with
  | (.error fault, _) => .error fault
  | (.ok layout, shifted) =>
    match shifted.assignAddresses layout options.addressBase with
    | (.error fault, _) => .error fault
    | (.ok addressStop, addressed) =>
      match addressed.relocateJumps with
      | (.error fault, _) => .error fault
      | (.ok relocated, code) => .ok { code, layout, addressStop, relocated }

variable {program : Program} {options : Options} {plan : StoragePlan}

/-! ## Where a stage fails -/

/-- If the variables cannot be placed, the first stage fails. -/
theorem runStages_of_storage_error {fault : Fault}
    (hplan : planStorage program.declarations program.tables program.code options.memoryBase =
      .error fault) :
    program.runStages options = .error fault := by
  simp only [runStages, assignStorage, hplan]

/-- If the code cannot be addressed, the second stage fails with the same fault: it finds other
payloads than a pass, but payloads take no part in addressing. -/
theorem runStages_of_addresses_error {fault : Fault}
    (hplan : planStorage program.declarations program.tables program.code options.memoryBase =
      .ok plan)
    (haddresses : program.code.planAddresses options.addressBase = .error fault) :
    program.runStages options = .error fault := by
  have hshifted : (plan.apply program.code).planAddresses options.addressBase = .error fault :=
    (Code.planAddresses_eq_of_outline (plan.outline_apply program.code) _).trans haddresses
  have hassign : (plan.apply program.code).assignAddresses plan.layout options.addressBase =
      (.error fault, plan.apply program.code) := by
    rw [Code.assignAddresses, hshifted]
  simp only [runStages, assignStorage, hplan, hassign]

/-! ## A pass and its stages -/

/-- **A pass is its stages, one after the other.**  It succeeds exactly when the stages do that are
run by hand, and leaves their code and their layout; it fails with the fault of the first of them
that fails, so a fault in placing the variables comes before any in addressing the code. -/
theorem resolve_eq_runStages (program : Program) (options : Options)
    (hstarted : program.started = false) :
    (program.resolve options =
      match program.runStages options with
      | .ok staged =>
        (.ok ⟨staged.layout.stop, staged.addressStop, staged.relocated⟩,
          { program with code := staged.code, layout := some staged.layout, started := true })
      | .error fault => (.error fault, program)) ∧
    ∀ fault,
      (assignStorage program.declarations program.tables program.code options.memoryBase).1 =
          .error fault →
        (program.resolve options).1 = .error fault := by
  rw [resolve, hstarted, if_neg Bool.false_ne_true]
  cases hplan : planStorage program.declarations program.tables program.code
      options.memoryBase with
  | error fault =>
    refine ⟨?_, ?_⟩
    · rw [runStages_of_storage_error hplan]
    · intro fault' hstorage
      rw [assignStorage, hplan] at hstorage
      cases hstorage
      rfl
  | ok plan =>
    refine ⟨?_, ?_⟩
    · cases haddresses : program.code.planAddresses options.addressBase with
      | error fault => rw [runStages_of_addresses_error hplan haddresses]
      | ok addresses =>
        -- No stage fails once both plans are there, so what is written is what the stages return.
        obtain ⟨addressed, relocated, haddressed, hrelocated, -⟩ :=
          Code.stages_succeed plan haddresses
        simp only [commit, runStages, assignStorage, hplan, haddressed, hrelocated]
    · intro fault hstorage
      rw [assignStorage, hplan] at hstorage
      cases hstorage

/-- A program with two faults: the variable does not fit, and the push has no width. -/
def misfit : Program where
  code := ⟨[{ op := .push }]⟩
  declarations := OrderedMap.insert ∅ "x" { kind := .scalar, size := 0x8000000000000000 }

/-- A pass with overlapping links leaves what its stages leave, and of two faults in different
stages it reports the one in the earlier stage. -/
theorem overlapping_eq_runStages :
    overlapping.started = false ∧
    (∃ staged, overlapping.runStages {} = .ok staged ∧
      overlapping.resolve {} = (.ok ⟨staged.layout.stop, staged.addressStop, staged.relocated⟩,
        { overlapping with code := staged.code, layout := some staged.layout, started := true })) ∧
    misfit.code.planAddresses 0 = .error (.zeroWidth 0) ∧
    (misfit.resolve {}).1 = .error (.memoryOverflow "x") := by
  refine ⟨rfl, ?_, by decide, (resolve_eq_runStages misfit {} rfl).2 _ (by decide)⟩
  have hresolve := (resolve_eq_runStages overlapping {} rfl).1
  cases hstaged : overlapping.runStages {} with
  | ok staged =>
    rw [hstaged] at hresolve
    exact ⟨staged, rfl, hresolve⟩
  | error fault =>
    -- The pass succeeds on this program.
    have hsummary : (overlapping.resolve {}).1 = .ok ⟨3, 5, 1⟩ := by decide
    rw [hresolve, hstaged] at hsummary
    cases hsummary

end Program

end StackLinker
