/-
# Outcomes

What a run of the command line leaves: an exit code and the texts on the two output streams.
-/
import StackLinker.CommandLine.Request
import StackLinker.Fault

namespace StackLinker.CommandLine

/-- What a run leaves. -/
structure Outcome where
  /-- The exit code. -/
  exit : UInt8
  /-- The text on the standard output. -/
  stdout : String := ""
  /-- The text on the standard error. -/
  stderr : String := ""
  deriving DecidableEq

/-- How the program is used that was called by a name. -/
def usage (name : String) : String :=
  "stackreloc - variable layout and jump relocation for stack machine bytecode\n" ++
  "\n" ++
  "Usage: " ++ name ++ " <program.toml> [options]\n" ++
  "\n" ++
  "Options:\n" ++
  "  -b, --base <N>          Address of the first instruction\n" ++
  "  -m, --memory-base <N>   Offset of the first variable\n" ++
  "      --no-validate       Skip the structural pre-check\n" ++
  "  -v, --verbose           Print a summary after the dump\n" ++
  "  -h, --help              Show this help message\n" ++
  "\n" ++
  "Numbers may be decimal or 0x-prefixed hex.\n"

/-- The line that reports an error. -/
def errorLine (message : String) : String := "Error: " ++ message ++ "\n"

/-- What a run of the program with a name leaves that ends with its arguments. -/
def Refusal.outcome (name : String) : Refusal → Outcome
  | .empty => { exit := 1, stdout := usage name }
  | .help => { exit := 0, stdout := usage name }
  | .missingValue option => { exit := 1, stderr := errorLine (option ++ " requires a value") }
  | .invalidValue text option =>
    { exit := 1, stderr := errorLine ("Invalid value '" ++ text ++ "' for " ++ option) }
  | .unknownOption text =>
    { exit := 1, stdout := usage name, stderr := errorLine ("Unknown option '" ++ text ++ "'") }
  | .severalFiles => { exit := 1, stderr := errorLine "Multiple input files specified" }
  | .noFile => { exit := 1, stdout := usage name, stderr := errorLine "No input file specified" }

end StackLinker.CommandLine
