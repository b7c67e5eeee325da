/-
# The stages behind the arguments

Once its arguments are accepted, a run reads a file, parses it, builds the program, checks it unless
that is left out, passes over it and prints it.  Main statement: if the file describes a program,
what the run leaves is what the check, the pass and the printing of this program come to, with the
bases of the request where it has them and else those of the description.
-/
import StackLinker.CommandLine.Run
import StackLinker.Proofs.CommandLine.Printing

namespace StackLinker.CommandLine

/-! ## Descriptions in files -/

/-- Tells that the content of a file describes a program, and which options the description
gives. -/
inductive Describes (parse : String → Except Fault Description)
    (content : Except ReadFailure ByteArray) : Program → Options → Prop
  | intro {bytes : ByteArray} {text : String} {description : Description} {program : Program}
    {given : Options} (hread : content = .ok bytes) (htext : String.fromUTF8? bytes = some text)
    (hparse : parse text = .ok description) (hbuild : description.build = .ok (program, given)) :
    Describes parse content program given

/-- The bytes of a text are decoded to that text. -/
theorem fromUTF8?_toUTF8 (text : String) : String.fromUTF8? text.toUTF8 = some text := by
  unfold String.fromUTF8?
  exact dif_pos text.isValidUTF8

/-- The bytes of a text describe what the text is parsed and built to. -/
theorem describes_of_parse {parse : String → Except Fault Description} {text : String}
    {description : Description} {program : Program} {given : Options}
    (hparse : parse text = .ok description) (hbuild : description.build = .ok (program, given)) :
    Describes parse (.ok text.toUTF8) program given :=
  .intro rfl (fromUTF8?_toUTF8 text) hparse hbuild

/-- What a run leaves that fails with a fault. -/
def failure (fault : Fault) (checking : Bool) : Outcome where
  exit := 1
  stdout := ""
  stderr := "Error: " ++ fault.message ++ "\n" ++
    if checking then "Use --no-validate to run the pass anyway.\n" else ""

namespace Request

variable {request : Request} {read : String → Except ReadFailure ByteArray}
  {parse : String → Except Fault Description} {program : Program} {options : Options}

/-- Tells that the file of a request holds the description of a program, and with which options the
program is to be passed over: those of the request where it has them, else those of the
description. -/
inductive Loads (request : Request) (read : String → Except ReadFailure ByteArray)
    (parse : String → Except Fault Description) : Program → Options → Prop
  | intro {program : Program} {given options : Options}
    (hfile : Describes parse (read request.file) program given)
    (haddress : options.addressBase = request.addressBase.getD given.addressBase)
    (hmemory : options.memoryBase = request.memoryBase.getD given.memoryBase) :
    Loads request read parse program options

/-- Tells that the check finds nothing in a program, or that it is left out. -/
def Admissible (request : Request) (program : Program) : Prop :=
  request.validating = true → program.validate = .ok ()

/-- Tells what a run leaves once the program is there and the options of the pass are settled.  If
the pass succeeds, all that is printed is the line of each node and, only if the run is to be
verbose, the summary and the positions of the declared variables, in the order of their
declaration. -/
structure Concludes (request : Request) (program : Program) (options : Options)
    (outcome : Outcome) : Prop where
  invalid : ∀ fault, request.validating = true → program.validate = .error fault →
    outcome = failure fault true
  unresolved : ∀ fault, request.Admissible program →
    (program.resolve options).1 = .error fault → outcome = failure fault false
  resolved : ∀ summary resolved, request.Admissible program →
    program.resolve options = (.ok summary, resolved) → ∃ lines : List String,
      (program.declarations.keys.map fun name =>
        (resolved.offsetOf? name).map (positionLine name)) = lines.map some ∧
      outcome =
        { exit := 0
          stdout := String.join (resolved.code.nodes.map nodeLine) ++
            if request.verbose then summaryText options summary ++ String.join lines else ""
          stderr := "" }

/-! ## From the file to the outcome -/

/-- What is loaded is what the request loads. -/
theorem Loads.load_eq (h : request.Loads read parse program options) :
    request.load parse (read request.file) = .ok (program, options) := by
  obtain ⟨⟨hread, htext, hparse, hbuild⟩, haddress, hmemory⟩ := h
  simp only [load, text, hread, htext, hparse, hbuild, bind, Except.bind, pure, Except.pure,
    override, ← haddress, ← hmemory]

/-- A check that succeeds, or is left out, lets the run go on. -/
theorem Admissible.checked_eq (h : request.Admissible program) :
    (if request.validating then program.validate else .ok ()) = .ok () := by
  split
  · rename_i hvalidating
    exact h hvalidating
  · rfl

/-- **Behind the file.**  A run that loads a program ends as the check and the pass of this program
do. -/
theorem Loads.concludes (h : request.Loads read parse program options) :
    request.Concludes program options (request.perform parse (read request.file)) := by
  refine ⟨?_, ?_, ?_⟩
  · intro fault hvalidating hvalidate
    simp only [perform, h.load_eq, process, if_pos hvalidating, hvalidate]
    rfl
  · intro fault hadmissible hresolve
    have hresult : program.resolve options = (.error fault, (program.resolve options).2) :=
      Prod.ext hresolve rfl
    rw [perform, h.load_eq]
    simp only [process, hadmissible.checked_eq]
    rw [hresult]
    rfl
  · intro summary resolved hadmissible hresolve
    obtain ⟨lines, hlines, hreport⟩ := exists_lines_of_resolve hresolve
    refine ⟨lines, hlines, ?_⟩
    simp only [perform, h.load_eq, process, hadmissible.checked_eq, hresolve]
    rw [Request.print, listing_eq_join, hreport]

end Request

end StackLinker.CommandLine
