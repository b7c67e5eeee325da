/-
# How a run ends

A run fails with the first of its stages that fails, and prints nothing then.  Main statement: if
all stages succeed, the lines of the program after the pass are printed and nothing else but the
report that was asked for; otherwise nothing is printed and the first stage that fails is reported.
How files are read and texts are parsed plays no part.
-/
import StackLinker.Description.OfToml
import StackLinker.Proofs.CommandLine.Reading

namespace StackLinker.CommandLine

/-! ## Ends -/

namespace Request

variable {request : Request} {read : String → Except ReadFailure ByteArray}
  {parse : String → Except Fault Description}

/-- Tells that all stages succeed: the program is loaded, passes the check unless that is left out,
and is resolved. -/
structure Completes (request : Request) (read : String → Except ReadFailure ByteArray)
    (parse : String → Except Fault Description) (program : Program) (options : Options)
    (summary : Summary) (resolved : Program) : Prop where
  loaded : request.Loads read parse program options
  checked : request.Admissible program
  resolved : program.resolve options = (.ok summary, resolved)

/-- Tells that a stage fails with a fault while those before it succeed, and whether that stage is
the check. -/
inductive FailsWith (request : Request) (read : String → Except ReadFailure ByteArray)
    (parse : String → Except Fault Description) : Fault → Bool → Prop
  | unreadable {failure : ReadFailure} (hread : read request.file = .error failure) :
    FailsWith request read parse (.unreadable request.file failure) false
  | undecodable {bytes : ByteArray} (hread : read request.file = .ok bytes)
    (htext : String.fromUTF8? bytes = none) :
    FailsWith request read parse (.unreadable request.file .notText) false
  | unparsable {bytes : ByteArray} {text : String} {fault : Fault}
    (hread : read request.file = .ok bytes) (htext : String.fromUTF8? bytes = some text)
    (hparse : parse text = .error fault) : FailsWith request read parse fault false
  | unbuildable {bytes : ByteArray} {text : String} {description : Description} {fault : Fault}
    (hread : read request.file = .ok bytes) (htext : String.fromUTF8? bytes = some text)
    (hparse : parse text = .ok description) (hbuild : description.build = .error fault) :
    FailsWith request read parse fault false
  | invalid {program : Program} {options : Options} {fault : Fault}
    (hloaded : request.Loads read parse program options) (hvalidating : request.validating = true)
    (hvalidate : program.validate = .error fault) : FailsWith request read parse fault true
  | unresolved {program : Program} {options : Options} {fault : Fault}
    (hloaded : request.Loads read parse program options) (hchecked : request.Admissible program)
    (hresolve : (program.resolve options).1 = .error fault) :
    FailsWith request read parse fault false

/-- A file is loaded, or a stage before the check fails. -/
theorem loads_or_failsWith (request : Request) (read : String → Except ReadFailure ByteArray)
    (parse : String → Except Fault Description) :
    (∃ program options, request.Loads read parse program options) ∨
      ∃ fault, request.FailsWith read parse fault false := by
  cases hread : read request.file with
  | error failure => exact .inr ⟨_, .unreadable hread⟩
  | ok bytes =>
    cases htext : String.fromUTF8? bytes with
    | none => exact .inr ⟨_, .undecodable hread htext⟩
    | some text =>
      cases hparse : parse text with
      | error fault => exact .inr ⟨fault, .unparsable hread htext hparse⟩
      | ok description =>
        cases hbuild : description.build with
        | error fault => exact .inr ⟨fault, .unbuildable hread htext hparse hbuild⟩
        | ok built =>
          have hfile : Describes parse (read request.file) built.1 built.2 :=
            .intro hread htext hparse hbuild
          exact .inl ⟨built.1, ⟨_, _⟩, .intro hfile rfl rfl⟩

/-- **The stages.**  All stages succeed, or one of them is the first to fail. -/
theorem completes_or_failsWith (request : Request) (read : String → Except ReadFailure ByteArray)
    (parse : String → Except Fault Description) :
    (∃ program options summary resolved,
      request.Completes read parse program options summary resolved) ∨
      ∃ fault checking, request.FailsWith read parse fault checking := by
  rcases request.loads_or_failsWith read parse with ⟨program, options, hloaded⟩ | ⟨fault, hfails⟩
  · have hresolves (hchecked : request.Admissible program) :
        (∃ program options summary resolved,
          request.Completes read parse program options summary resolved) ∨
          ∃ fault checking, request.FailsWith read parse fault checking := by
      cases hresolve : (program.resolve options).1 with
      | ok summary =>
        exact .inl ⟨program, options, summary, _, hloaded, hchecked, Prod.ext hresolve rfl⟩
      | error fault => exact .inr ⟨fault, false, .unresolved hloaded hchecked hresolve⟩
    cases hvalidating : request.validating with
    | false => exact hresolves fun h => absurd h (by simp [hvalidating])
    | true =>
      cases hvalidate : program.validate with
      | ok => exact hresolves fun _ => hvalidate
      | error fault => exact .inr ⟨fault, true, .invalid hloaded hvalidating hvalidate⟩
  · exact .inr ⟨fault, false, hfails⟩

/-- A request that cannot be loaded fails with that fault. -/
theorem perform_of_load_error {fault : Fault}
    (h : request.load parse (read request.file) = .error fault) :
    request.perform parse (read request.file) = failure fault false := by
  rw [perform, h]
  rfl

/-- If a stage fails, its fault is reported. -/
theorem FailsWith.perform_eq {fault : Fault} {checking : Bool}
    (h : request.FailsWith read parse fault checking) :
    request.perform parse (read request.file) = failure fault checking := by
  cases h with
  | unreadable hread =>
    apply perform_of_load_error
    simp only [load, text, hread, bind, Except.bind]
  | undecodable hread htext =>
    apply perform_of_load_error
    simp only [load, text, hread, htext, bind, Except.bind]
  | unparsable hread htext hparse =>
    apply perform_of_load_error
    simp only [load, text, hread, htext, hparse, bind, Except.bind]
  | unbuildable hread htext hparse hbuild =>
    apply perform_of_load_error
    simp only [load, text, hread, htext, hparse, hbuild, bind, Except.bind]
  | invalid hloaded hvalidating hvalidate =>
    exact hloaded.concludes.invalid fault hvalidating hvalidate
  | unresolved hloaded hchecked hresolve =>
    exact hloaded.concludes.unresolved fault hchecked hresolve

end Request

/-! ## Outcomes -/

/-- **A run is all or nothing.**  Arguments that are accepted are options, flags and one file, and
the request is what they say.  A run with them exits with 0 exactly if all its stages succeed.  Then
it prints a line for each node of the program after the pass, which has the address, the mnemonic
and the payload of the node, and, only if it is to be verbose, the summary and the positions of the
declared variables, and reports no error.  Otherwise some stage is the first to fail; then the run
exits with 1, prints nothing, and reports the fault of that stage, with a hint exactly if that is
the check. -/
theorem run_all_or_nothing {arguments : List String} {request : Request}
    (h : Request.ofArguments arguments = .ok request) (name : String)
    (read : String → Except ReadFailure ByteArray) (parse : String → Except Fault Description) :
    (∃ items, Item.AllSpelled items arguments ∧ request.Says items) ∧
    ((run name arguments read parse).exit = 0 ↔ ∃ program options summary resolved,
      request.Completes read parse program options summary resolved) ∧
    (∀ program options summary resolved,
      request.Completes read parse program options summary resolved → ∃ lines : List String,
        (program.declarations.keys.map fun name =>
          (resolved.offsetOf? name).map (positionLine name)) = lines.map some ∧
        run name arguments read parse =
          { exit := 0
            stdout := String.join (resolved.code.nodes.map nodeLine) ++
              if request.verbose then summaryText options summary ++ String.join lines else ""
            stderr := "" }) ∧
    ((run name arguments read parse).exit ≠ 0 →
      ∃ fault checking, request.FailsWith read parse fault checking) ∧
    ∀ fault checking, request.FailsWith read parse fault checking →
      run name arguments read parse =
        { exit := 1
          stdout := ""
          stderr := "Error: " ++ fault.message ++ "\n" ++
            if checking then "Use --no-validate to run the pass anyway.\n" else "" } := by
  have hrun : run name arguments read parse = request.perform parse (read request.file) := by
    rw [run, h]
  rw [hrun]
  have hfails : ∀ fault checking, request.FailsWith read parse fault checking →
      request.perform parse (read request.file) = failure fault checking :=
    fun _ _ hfails => hfails.perform_eq
  have hcompletes : ∀ program options summary resolved,
      request.Completes read parse program options summary resolved → ∃ lines : List String,
        (program.declarations.keys.map fun name =>
          (resolved.offsetOf? name).map (positionLine name)) = lines.map some ∧
        request.perform parse (read request.file) =
          { exit := 0
            stdout := String.join (resolved.code.nodes.map nodeLine) ++
              if request.verbose then summaryText options summary ++ String.join lines else ""
            stderr := "" } := by
    intro program options summary resolved hcompletes
    exact hcompletes.loaded.concludes.resolved summary resolved hcompletes.checked
      hcompletes.resolved
  refine ⟨Request.exists_items_of_ofArguments h, ⟨?_, ?_⟩, hcompletes, ?_, hfails⟩
  · intro hexit
    rcases request.completes_or_failsWith read parse with hall | ⟨fault, checking, hfail⟩
    · exact hall
    · rw [hfails fault checking hfail] at hexit
      cases hexit
  · rintro ⟨program, options, summary, resolved, hall⟩
    obtain ⟨_, -, houtcome⟩ := hcompletes program options summary resolved hall
    rw [houtcome]
  · intro hexit
    rcases request.completes_or_failsWith read parse with ⟨_, _, _, _, hall⟩ | hfail
    · obtain ⟨_, -, houtcome⟩ := hcompletes _ _ _ _ hall
      rw [houtcome] at hexit
      exact absurd rfl hexit
    · exact hfail

/-- A text that is parsed to the description of a linked push. -/
def linkedText : String :=
  "options.base_address = 4\noptions.memory_base = 5\n" ++
  "[[variables]]\nname = 'x'\nkind = 'scalar'\nsize = 2\ninstr = 'p'\n" ++
  "[[instructions]]\nlabel = 'p'\nop = 'push'\nwidth = 1\n"

/-- The description of an instruction that refers to no variable. -/
def unlinkedText : String := "[[instructions]]\nop = 'dup'\nconst_ref = 'y'\n"

/-- The files with both descriptions and one that is cut off; there are no others. -/
def descriptionFile (name : String) : Except ReadFailure ByteArray :=
  if name = "linked" then .ok linkedText.toUTF8
  else if name = "unlinked" then .ok unlinkedText.toUTF8
  else if name = "cut" then .ok "[[instructions".toUTF8
  else .error .missing

/-- The first description is resolved with the memory base of the request and printed with its
summary; the second fails the check, and the hint is given; the third is none, and what the reader
of documents says is reported. -/
theorem descriptions_all_or_nothing :
    let parse := Description.parse fun text => "in " ++ text
    run "stackreloc" ["linked", "-m", "0x10", "-v"] descriptionFile parse =
      { exit := 0
        stdout :=
          "4   push         : 16\n" ++
          "\n" ++
          "Memory:     0x0010..0x0012\n" ++
          "Addresses:  0x0004..0x0005\n" ++
          "Relocated:  0 jump targets\n" ++
          "  x                0x0010\n"
        stderr := "" } ∧
    run "stackreloc" ["unlinked"] descriptionFile parse =
      { exit := 1
        stdout := ""
        stderr := "Error: Undefined variable 'y' referenced by #0\n" ++
          "Use --no-validate to run the pass anyway.\n" } ∧
    run "stackreloc" ["cut"] descriptionFile parse =
      { exit := 1
        stdout := ""
        stderr := "Error: Program description error: in [[instructions\n" } := by
  intro parse
  have hlinked : Request.ofArguments ["linked", "-m", "0x10", "-v"] =
      .ok { file := "linked", memoryBase := some 16, verbose := true } := by decide
  have hunlinked : Request.ofArguments ["unlinked"] = .ok { file := "unlinked" } := by decide
  have hcut : Request.ofArguments ["cut"] = .ok { file := "cut" } := by decide
  obtain ⟨-, -, hprinted, -, -⟩ := run_all_or_nothing hlinked "stackreloc" descriptionFile parse
  obtain ⟨-, -, -, -, hfails⟩ := run_all_or_nothing hunlinked "stackreloc" descriptionFile parse
  obtain ⟨-, -, -, -, hcutFails⟩ := run_all_or_nothing hcut "stackreloc" descriptionFile parse
  refine ⟨?_, ?_, ?_⟩
  · have hparse : parse linkedText = .ok linkedDescription := by decide +kernel
    have hfile : Describes parse (descriptionFile "linked") linkedPush ⟨4, 5⟩ :=
      describes_of_parse hparse rfl
    have hresolve : (linkedPush.resolve ⟨4, 16⟩).1 = .ok ⟨18, 5, 0⟩ := by decide
    obtain ⟨lines, hlines, hrun⟩ := hprinted linkedPush ⟨4, 16⟩ ⟨18, 5, 0⟩ _
      ⟨.intro hfile rfl rfl, fun _ => by decide, Prod.ext hresolve rfl⟩
    have hpositions : (linkedPush.declarations.keys.map fun name =>
        ((linkedPush.resolve ⟨4, 16⟩).2.offsetOf? name).map (positionLine name)) =
          ["  x                0x0010\n"].map some := by decide +kernel
    obtain rfl : lines = ["  x                0x0010\n"] :=
      List.map_injective_iff.mpr (Option.some_injective _) (hlines.symm.trans hpositions)
    have hprint : String.join ((linkedPush.resolve ⟨4, 16⟩).2.code.nodes.map nodeLine) ++
        (summaryText ⟨4, 16⟩ ⟨18, 5, 0⟩ ++ String.join ["  x                0x0010\n"]) =
          "4   push         : 16\n" ++ "\n" ++ "Memory:     0x0010..0x0012\n" ++
            "Addresses:  0x0004..0x0005\n" ++ "Relocated:  0 jump targets\n" ++
            "  x                0x0010\n" := by decide +kernel
    exact hrun.trans (congrArg (Outcome.mk 0 · "") hprint)
  · have hparse : parse unlinkedText =
        .ok { instructions := [{ op := "dup", reference := some "y" }] } := by decide +kernel
    exact hfails (.undefinedVariable "y" 0) true
      (.invalid (.intro (describes_of_parse hparse rfl) rfl rfl) rfl (by decide +kernel))
  · have hparse : parse "[[instructions" =
        .error (.malformedDescription "in [[instructions") := by decide +kernel
    exact hcutFails (.malformedDescription "in [[instructions") false
      (.unparsable rfl (fromUTF8?_toUTF8 _) hparse)

end StackLinker.CommandLine
