/-
# Histories of a program

A program is built, edited, checked, staged by hand and passed over in any order.  Only a pass
reaches its layout and its mark, and a pass sets both or neither, so the mark says that a layout is
there.  Main statement: in any history at most one pass succeeds, every later one is refused and
changes nothing, and what the pass that succeeded has reported is reported ever after.
-/
import StackLinker.Code.Emission
import StackLinker.Program.Validation
import StackLinker.Proofs.Program.Resolve

namespace StackLinker

/-! ## Operations -/

/-- What can be done to a program. -/
inductive Operation where
  | push (n : Node)
  | replace (id : NodeId) (n : Node)
  | declare (name : String) (slot : Slot)
  | registerArray (name : String) (id : NodeId)
  | registerString (name : String) (id : NodeId)
  /-- Puts other code, variables and tables in place of those of the program. -/
  | refill (code : Code) (declarations : Declarations) (tables : EntryTables)
  | planLayout (base : Offset)
  | planStorage (base : Offset)
  | applyPlan (plan : StoragePlan)
  | assignStorage (base : Offset)
  | planAddresses (base : Address)
  | assignAddresses (layout : Layout) (base : Address)
  | relocateJumps
  | validate
  | emit
  | resolve (options : Options)

namespace Program

/-- Whether a stage succeeds, and the program with the code that the stage leaves. -/
def recode {α : Type} (program : Program) (result : Except Fault α × Code) :
    Except Fault Unit × Program :=
  (result.1.map fun _ => (), { program with code := result.2 })

/-- Whether an operation succeeds, and the program that it leaves. -/
def perform (program : Program) : Operation → Except Fault Unit × Program
  | .push n => (.ok (), { program with code := program.code.push n })
  | .replace id n => (.ok (), { program with code := program.code.set id n })
  | .declare name slot =>
    (.ok (), { program with declarations := program.declarations.insert name slot })
  | .registerArray name id =>
    (.ok (), { program with
      tables := { program.tables with arrays := program.tables.arrays.register name id } })
  | .registerString name id =>
    (.ok (), { program with
      tables := { program.tables with strings := program.tables.strings.register name id } })
  | .refill code declarations tables => (.ok (), { program with code, declarations, tables })
  | .planLayout base => ((program.declarations.layout base).map fun _ => (), program)
  | .planStorage base =>
    ((planStorage program.declarations program.tables program.code base).map fun _ => (), program)
  | .applyPlan plan => program.recode (.ok plan.layout, plan.apply program.code)
  | .assignStorage base =>
    program.recode (assignStorage program.declarations program.tables program.code base)
  | .planAddresses base => ((program.code.planAddresses base).map fun _ => (), program)
  | .assignAddresses layout base => program.recode (program.code.assignAddresses layout base)
  | .relocateJumps => program.recode program.code.relocateJumps
  | .validate => (program.validate, program)
  | .emit => (program.code.emit.map fun _ => (), program)
  | .resolve options =>
    ((program.resolve options).1.map fun _ => (), (program.resolve options).2)

/-- The program after a history. -/
def run (program : Program) (history : List Operation) : Program :=
  history.foldl (fun program operation => (program.perform operation).2) program

/-- Tells whether an operation is a pass that succeeds. -/
def passes (program : Program) : Operation → Bool
  | .resolve options => (program.resolve options).1.isOk
  | _ => false

/-- The number of passes in a history that succeed. -/
def passCount (program : Program) : List Operation → Nat
  | [] => 0
  | operation :: rest =>
    (program.passes operation).toNat + (program.perform operation).2.passCount rest

theorem run_cons (program : Program) (operation : Operation) (rest : List Operation) :
    program.run (operation :: rest) = (program.perform operation).2.run rest := rfl

theorem run_append (program : Program) (first later : List Operation) :
    program.run (first ++ later) = (program.run first).run later := by
  rw [run, List.foldl_append, run, run]

/-! ## What one operation does to the mark and the layout -/

variable {program : Program} {options : Options}

/-- A program that has been marked refuses every pass. -/
theorem resolve_of_started (h : program.started = true) (options : Options) :
    program.resolve options = (.error .alreadyResolved, program) := by
  rw [resolve, if_pos h]

/-- **Only passes that succeed reach the mark and the layout.** -/
theorem perform_keeps {operation : Operation} (h : program.passes operation = false) :
    (program.perform operation).2.started = program.started ∧
      (program.perform operation).2.layout = program.layout := by
  cases operation with
  | resolve options =>
    -- A pass that fails leaves the whole program as it was.
    cases hresult : (program.resolve options).1 with
    | ok summary => simp [passes, hresult, Except.isOk, Except.toBool] at h
    | error fault =>
      rw [perform, resolve_of_error hresult]
      exact ⟨rfl, rfl⟩
  | _ => exact ⟨rfl, rfl⟩

/-- A pass that succeeds finds the program unmarked, and marks it with a layout. -/
theorem started_of_resolve {summary : Summary} (h : (program.resolve options).1 = .ok summary) :
    program.started = false ∧ (program.resolve options).2.started = true ∧
      ∃ layout, (program.resolve options).2.layout = some layout := by
  have hpass := program.pass_resolve options
  generalize program.resolve options = result at hpass h ⊢
  cases hpass with
  | refused => cases h
  | unplaced => cases h
  | unaddressed => cases h
  | @resolved plan _ _ hstarted => exact ⟨hstarted, rfl, plan.layout, rfl⟩

/-- An operation that is a pass and succeeds finds the program unmarked, and marks it with a
layout. -/
theorem perform_of_passes {operation : Operation} (h : program.passes operation = true) :
    program.started = false ∧ (program.perform operation).2.started = true ∧
      ∃ layout, (program.perform operation).2.layout = some layout := by
  cases operation with
  | resolve options =>
    cases hresult : (program.resolve options).1 with
    | ok summary => exact started_of_resolve hresult
    | error fault => simp [passes, hresult, Except.isOk, Except.toBool] at h
  | _ => cases h

/-- A program that has been marked keeps its mark and its layout whatever is done to it. -/
theorem perform_of_started (h : program.started = true) (operation : Operation) :
    (program.perform operation).2.started = true ∧
      (program.perform operation).2.layout = program.layout := by
  cases hpasses : program.passes operation with
  | false =>
    obtain ⟨hstarted, hlayout⟩ := perform_keeps hpasses
    exact ⟨hstarted.trans h, hlayout⟩
  | true =>
    have hunmarked := (perform_of_passes hpasses).1
    rw [h] at hunmarked
    cases hunmarked

/-- An operation marks the program exactly if it is a pass that succeeds. -/
theorem toNat_started_perform (program : Program) (operation : Operation) :
    (program.perform operation).2.started.toNat =
      program.started.toNat + (program.passes operation).toNat := by
  cases hpasses : program.passes operation with
  | false =>
    rw [(perform_keeps hpasses).1]
    rfl
  | true =>
    obtain ⟨hbefore, hafter, -⟩ := perform_of_passes hpasses
    rw [hbefore, hafter]
    rfl

/-- An operation keeps the mark and the layout together. -/
theorem started_eq_isResolved_perform (h : program.started = program.isResolved)
    (operation : Operation) :
    (program.perform operation).2.started = (program.perform operation).2.isResolved := by
  cases hpasses : program.passes operation with
  | false =>
    obtain ⟨hstarted, hlayout⟩ := perform_keeps hpasses
    rw [hstarted, h, isResolved, isResolved, hlayout]
  | true =>
    obtain ⟨-, hafter, layout, hlayout⟩ := perform_of_passes hpasses
    rw [hafter, isResolved, hlayout]
    rfl

/-! ## What a history does to them -/

/-- A program that has been marked keeps its mark and its layout through any history. -/
theorem run_of_started (h : program.started = true) (history : List Operation) :
    (program.run history).started = true ∧ (program.run history).layout = program.layout := by
  induction history generalizing program with
  | nil => exact ⟨h, rfl⟩
  | cons operation rest ih =>
    obtain ⟨hstarted, hlayout⟩ := perform_of_started h operation
    rw [run_cons, ← hlayout]
    exact ih hstarted

/-- A history marks the program once for each pass that succeeds. -/
theorem toNat_started_run (program : Program) (history : List Operation) :
    (program.run history).started.toNat = program.started.toNat + program.passCount history := by
  induction history generalizing program with
  | nil => rfl
  | cons operation rest ih =>
    rw [run_cons, ih, toNat_started_perform, passCount, Nat.add_assoc]

/-- A history keeps the mark and the layout together. -/
theorem started_eq_isResolved_run (h : program.started = program.isResolved)
    (history : List Operation) :
    (program.run history).started = (program.run history).isResolved := by
  induction history generalizing program with
  | nil => exact h
  | cons operation rest ih =>
    rw [run_cons]
    exact ih (started_eq_isResolved_perform h operation)

/-! ## The life of a program -/

/-- **A program is passed once.**  In any history of a new program the mark says that a layout is
there, at most one pass succeeds, and the mark is set exactly if one did.  A pass that fails is as
if it had not been tried.  Once a pass has succeeded, its layout and the offsets in it are reported
whatever is done to the program, and every further pass is refused and changes nothing. -/
theorem run_once (code : Code) (declarations : Declarations) (tables : EntryTables) :
    let fresh : Program := { code, declarations, tables }
    (∀ history,
      (fresh.run history).started = (fresh.run history).isResolved ∧
      fresh.passCount history ≤ 1 ∧
      ((fresh.run history).started = true ↔ fresh.passCount history = 1)) ∧
    ∀ before options after,
      (∀ fault, ((fresh.run before).resolve options).1 = .error fault →
        fresh.run (before ++ .resolve options :: after) = fresh.run (before ++ after)) ∧
      ∀ summary, ((fresh.run before).resolve options).1 = .ok summary →
        let later := fresh.run (before ++ .resolve options :: after)
        ∃ layout, ((fresh.run before).resolve options).2.layout = some layout ∧
          later.layout = some layout ∧
          (∀ name, later.offsetOf? name = layout.position? name) ∧
          ∀ options', later.resolve options' = (.error .alreadyResolved, later) := by
  intro fresh
  refine ⟨?_, ?_⟩
  · intro history
    have hcount := toNat_started_run fresh history
    have hfresh : fresh.started.toNat = 0 := rfl
    rw [hfresh, Nat.zero_add] at hcount
    refine ⟨started_eq_isResolved_run rfl history, ?_, ?_⟩
    · rw [← hcount]
      exact Bool.toNat_le _
    · rw [← hcount]
      cases (fresh.run history).started <;> simp
  · intro before options after
    have hrun : fresh.run (before ++ .resolve options :: after) =
        ((fresh.run before).resolve options).2.run after := by
      rw [run_append, run_cons, perform]
    refine ⟨?_, ?_⟩
    · intro fault hfault
      rw [hrun, resolve_of_error hfault, run_append]
    · intro summary hsummary
      obtain ⟨-, hstarted, layout, hlayout⟩ := started_of_resolve hsummary
      obtain ⟨hlater, hkept⟩ := run_of_started hstarted after
      rw [hlayout] at hkept
      rw [hrun]
      refine ⟨layout, hlayout, hkept, ?_, ?_⟩
      · intro name
        rw [offsetOf?, hkept, Option.bind_some]
      · exact resolve_of_started hlater

/-- A history in which a first pass refuses a push without width, and an edit gives it one. -/
def mended : List Operation :=
  [.push { op := .target }, .push { op := .push, reference := some "x" },
    .push { op := .jump, target := some 0, carrier := some 1 }, .resolve {},
    .replace 1 { op := .push, reference := some "x", width := 2 },
    .declare "x" { kind := .scalar, size := 4 }, .validate]

/-- The first pass does not count, the second reports the variable at its base, and a declaration,
an edit, relocation by hand and a pass from another base change nothing about that. -/
theorem mended_run_once :
    let fresh : Program := {}
    let later := fresh.run (mended ++ .resolve ⟨8, 16⟩ ::
      [.declare "x" { kind := .array, size := 1 }, .push { op := .push }, .relocateJumps,
        .resolve ⟨0, 0⟩])
    fresh.run mended = fresh.run (mended.eraseIdx 3) ∧
    ((fresh.run mended).resolve ⟨8, 16⟩).1 = .ok ⟨20, 11, 1⟩ ∧
    later.offsetOf? "x" = some 16 ∧ later.resolve {} = (.error .alreadyResolved, later) := by
  intro fresh later
  have hsummary : ((fresh.run mended).resolve ⟨8, 16⟩).1 = .ok ⟨20, 11, 1⟩ := by decide
  have honce := (run_once {} ∅ {}).2
  refine ⟨?_, hsummary, ?_⟩
  · exact (honce (mended.take 3) {} (mended.drop 4)).1 (.zeroWidth 1) (by decide)
  · obtain ⟨layout, hlayout, -, hoffset, hrefused⟩ := (honce mended ⟨8, 16⟩ _).2 _ hsummary
    have hposition : (((fresh.run mended).resolve ⟨8, 16⟩).2.layout.bind fun layout =>
        layout.position? "x") = some 16 := by decide
    rw [hlayout, Option.bind_some] at hposition
    exact ⟨(hoffset "x").trans hposition, hrefused {}⟩

end Program

end StackLinker
