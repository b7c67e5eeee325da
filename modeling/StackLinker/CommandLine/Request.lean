/-
# Requests

What the arguments of the command line ask for. They are read from left to right: an option that
takes a value takes the argument after it, whatever that is; of two values for one option the later
counts.
-/
import StackLinker.Text.Numeral
import StackLinker.Word

namespace StackLinker.CommandLine

/-! ## Requests -/

/-- What the arguments ask for. -/
structure Request where
  /-- The name of the file with the description; empty as long as none is given. -/
  file : String := ""
  /-- The address of the first instruction, in place of the one that the description gives. -/
  addressBase : Option Address := none
  /-- The offset of the first variable, in place of the one that the description gives. -/
  memoryBase : Option Offset := none
  /-- Whether the structure of the program is checked first. -/
  validating : Bool := true
  /-- Whether a report follows the listing. -/
  verbose : Bool := false
  deriving DecidableEq

/-- Why the arguments lead to no request. -/
inductive Refusal where
  /-- There are no arguments. -/
  | empty
  /-- The arguments ask for help. -/
  | help
  /-- An option lacks its value. -/
  | missingValue (option : String)
  /-- The value of an option is no number that it can take. -/
  | invalidValue (text option : String)
  /-- There is no such option. -/
  | unknownOption (text : String)
  /-- There is more than one file. -/
  | severalFiles
  /-- There is no file. -/
  | noFile
  deriving DecidableEq

/-! ## Numbers -/

/-- The number that the value of an option stands for: decimal, or hexadecimal after `0x`, with a
sign that may be missing, and not negative. -/
def optionValue? (text : String) : Option Offset :=
  let n? := match text.toList with
    | '0' :: 'x' :: digits => Text.integer? 16 digits
    | '0' :: 'X' :: digits => Text.integer? 16 digits
    | digits => Text.integer? 10 digits
  (n?.bind Offset.ofInt?).filter fun n => 0 ≤ n.toInt

/-! ## Arguments -/

/-- What one argument says. -/
inductive Argument where
  | addressBase | memoryBase | skipValidation | verbose | help
  | unknown (text : String)
  | file (name : String)
  deriving DecidableEq

/-- Tells what an argument says by itself. -/
def Argument.ofText (text : String) : Argument :=
  if text = "-b" ∨ text = "--base" then .addressBase
  else if text = "-m" ∨ text = "--memory-base" then .memoryBase
  else if text = "--no-validate" then .skipValidation
  else if text = "-v" ∨ text = "--verbose" then .verbose
  else if text = "-h" ∨ text = "--help" then .help
  else if text.toList.head? = some '-' then .unknown text
  else .file text

/-- Reads arguments into a request. -/
def Request.scan (request : Request) : List String → Except Refusal Request
  | [] => if request.file = "" then .error .noFile else .ok request
  | argument :: rest =>
    match Argument.ofText argument with
    | .addressBase =>
      match rest with
      | [] => .error (.missingValue "--base")
      | text :: rest =>
        match optionValue? text with
        | none => .error (.invalidValue text "--base")
        | some n => Request.scan { request with addressBase := some n.toUInt64 } rest
    | .memoryBase =>
      match rest with
      | [] => .error (.missingValue "--memory-base")
      | text :: rest =>
        match optionValue? text with
        | none => .error (.invalidValue text "--memory-base")
        | some n => Request.scan { request with memoryBase := some n } rest
    | .skipValidation => Request.scan { request with validating := false } rest
    | .verbose => Request.scan { request with verbose := true } rest
    | .help => .error .help
    | .unknown text => .error (.unknownOption text)
    | .file name =>
      if request.file = "" then Request.scan { request with file := name } rest
      else .error .severalFiles

/-- The request that arguments make. -/
def Request.ofArguments : List String → Except Refusal Request
  | [] => .error .empty
  | arguments => Request.scan {} arguments

end StackLinker.CommandLine
