/-
# Runs

From the bytes of a file to what the command line prints. Nothing is printed on the standard output
unless every step succeeds.
-/
import StackLinker.Code.Listing
import StackLinker.CommandLine.Outcome
import StackLinker.CommandLine.Report
import StackLinker.Description.Build
import StackLinker.Program.Validation

namespace StackLinker.CommandLine

/-- Why a run fails. -/
structure Failure where
  /-- The cause. -/
  fault : Fault
  /-- Whether the check of the structure found it, which can be left out. -/
  validation : Bool := false
  deriving DecidableEq

/-- What a failed run leaves. -/
def Failure.outcome (failure : Failure) : Outcome where
  exit := 1
  stderr := errorLine failure.fault.message ++
    if failure.validation then "Use --no-validate to run the pass anyway.\n" else ""

namespace Request

/-- The options of a description with those of the request in their place. -/
def override (request : Request) (options : Options) : Options where
  addressBase := request.addressBase.getD options.addressBase
  memoryBase := request.memoryBase.getD options.memoryBase

/-- The text of a file. -/
def text (request : Request) (content : Except ReadFailure ByteArray) : Except Fault String :=
  match content with
  | .error failure => .error (.unreadable request.file failure)
  | .ok bytes =>
    match String.fromUTF8? bytes with
    | some text => .ok text
    | none => .error (.unreadable request.file .notText)

/-- The program that a text describes, with the options that hold for the run. -/
def load (request : Request) (parse : String → Except Fault Description)
    (content : Except ReadFailure ByteArray) : Except Fault (Program × Options) := do
  let text ← request.text content
  let description ← parse text
  let (program, options) ← description.build
  return (program, request.override options)

/-- What the run prints for a program. -/
def print (request : Request) (options : Options) (summary : Summary) (program : Program) :
    String :=
  program.code.listing ++ if request.verbose then report options summary program.layout else ""

/-- Checks the program if the request says so, and runs the pass. -/
def process (request : Request) (program : Program) (options : Options) : Except Failure String :=
  match (if request.validating then program.validate else .ok ()) with
  | .error fault => .error ⟨fault, true⟩
  | .ok () =>
    match program.resolve options with
    | (.error fault, _) => .error ⟨fault, false⟩
    | (.ok summary, resolved) => .ok (request.print options summary resolved)

/-- What a request leaves, given what its file holds. -/
def perform (request : Request) (parse : String → Except Fault Description)
    (content : Except ReadFailure ByteArray) : Outcome :=
  match request.load parse content with
  | .error fault => Failure.outcome ⟨fault, false⟩
  | .ok (program, options) =>
    match request.process program options with
    | .error failure => failure.outcome
    | .ok stdout => { exit := 0, stdout }

end Request

/-- What a run leaves, given the name by which the program was called, its arguments, the files and
the way in which descriptions are parsed. -/
def run (name : String) (arguments : List String) (read : String → Except ReadFailure ByteArray)
    (parse : String → Except Fault Description) : Outcome :=
  match Request.ofArguments arguments with
  | .error refusal => refusal.outcome name
  | .ok request => request.perform parse (read request.file)

end StackLinker.CommandLine
