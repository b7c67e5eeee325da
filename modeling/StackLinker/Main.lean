/-
# The command line program

Reads the file that the arguments name, prints what the run leaves and exits with its code.
-/
import StackLinker.CommandLine.Run
import StackLinker.Description.OfToml

namespace StackLinker.CommandLine

/-- The name of the program.  That by which it was called is not among its arguments. -/
def programName : String := "stackreloc"

/-- What the program says about a text that describes no program. -/
def malformedText (_ : String) : String := "not a program description"

/-- Why the system could not read a file. -/
def readFailure : IO.Error → ReadFailure
  | .noFileOrDirectory .. => .missing
  | .inappropriateType _ code _ => if code = 21 ∨ code = -21 then .directory else .notDirectory
  | failure@(.invalidArgument _ code _) =>
    if code = 36 ∨ code = -36 then .nameTooLong else .system (toString failure)
  | failure => .system (toString failure)

/-- The bytes of a file. -/
def readFile (name : String) : IO (Except ReadFailure ByteArray) := do
  try
    return .ok (← IO.FS.readBinFile name)
  catch failure =>
    return .error (readFailure failure)

/-- The content of the file that arguments name, under any name; no other file is read in a run. -/
def readFileOf (arguments : List String) : IO (String → Except ReadFailure ByteArray) := do
  match Request.ofArguments arguments with
  | .error _ => return fun _ => .error .missing
  | .ok request =>
    let content ← readFile request.file
    return fun _ => content

/-- Prints what a run leaves and gives its exit code. -/
def finish (outcome : Outcome) : IO UInt32 := do
  (← IO.getStdout).putStr outcome.stdout
  (← IO.getStderr).putStr outcome.stderr
  return outcome.exit.toUInt32

/-- Runs the command line with given arguments. -/
def runWith (arguments : List String) : IO UInt32 := do
  let read ← readFileOf arguments
  finish (run programName arguments read (Description.parse malformedText))

end StackLinker.CommandLine

/-- The command line program. -/
def main (arguments : List String) : IO UInt32 := StackLinker.CommandLine.runWith arguments
