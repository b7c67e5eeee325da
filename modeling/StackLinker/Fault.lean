/-
# Faults

What can go wrong, by cause, and the words for each cause.
-/
import StackLinker.Code.NodeId
import StackLinker.Word

namespace StackLinker

/-! ## Causes -/

/-- Why a file could not be read. -/
inductive ReadFailure where
  | missing
  | directory
  /-- The name goes through something that is no directory. -/
  | notDirectory
  | nameTooLong
  | notText
  /-- The system refuses for another reason. -/
  | system (reason : String)
  deriving DecidableEq

/-- The cause of a failure. -/
inductive Fault where
  /-- A push without a width was to be addressed. -/
  | zeroWidth (id : NodeId)
  /-- An address is too high for a jump to carry it. -/
  | addressOverflow (address : Address)
  /-- An offset of a variable leaves the range of offsets. -/
  | memoryOverflow (name : String)
  | alreadyResolved
  /-- A node to be emitted still waits for its final payload. -/
  | unresolvedPayload (id : NodeId)
  | notAddressed (id : NodeId)
  /-- A node belongs to a variable that is not declared. -/
  | undefinedVariable (name : String) (id : NodeId)
  /-- A node links to a place outside the code. -/
  | danglingReference (id link : NodeId)
  /-- A variable has a node outside the code. -/
  | danglingEntry (name : String) (id : NodeId)
  | unknownOpcode (text : String)
  | unknownLabel (label : String)
  | duplicateLabel (label : String)
  /-- An instruction has a literal payload and a pending one. -/
  | payloadConflict (instruction : String)
  /-- A text describes no program, for a reason that its reader gives. -/
  | malformedDescription (reason : String)
  | unreadable (name : String) (failure : ReadFailure)
  deriving DecidableEq

/-! ## Words -/

/-- The words for a failed read. -/
def ReadFailure.message : ReadFailure → String
  | .missing => "No such file or directory (os error 2)"
  | .directory => "Is a directory (os error 21)"
  | .notDirectory => "Not a directory (os error 20)"
  | .nameTooLong => "File name too long (os error 36)"
  | .notText => "stream did not contain valid UTF-8"
  | .system reason => reason

/-- The words for a fault. -/
def Fault.message : Fault → String
  | .zeroWidth id => "Push instruction " ++ id.label ++ " reached addressing with zero width"
  | .addressOverflow address =>
    "Address 0x" ++ Text.hexadecimal 0 address.toNat ++ " does not fit a 32-bit target"
  | .memoryOverflow name => "Storage offset of variable '" ++ name ++ "' overflows"
  | .alreadyResolved => "Program has already been resolved"
  | .unresolvedPayload id => "Instruction " ++ id.label ++ " still carries an unresolved constant"
  | .notAddressed id => "Instruction " ++ id.label ++ " has no address assigned"
  | .undefinedVariable name id => "Undefined variable '" ++ name ++ "' referenced by " ++ id.label
  | .danglingReference id link =>
    id.label ++ " links to " ++ link.label ++ " which is not in the chain"
  | .danglingEntry name id =>
    "Variable '" ++ name ++ "' refers to " ++ id.label ++ " which is not in the chain"
  | .unknownOpcode text => "Unknown opcode '" ++ text ++ "'"
  | .unknownLabel label => "Unknown instruction label '" ++ label ++ "'"
  | .duplicateLabel label => "Program description error: label '" ++ label ++ "' defined twice"
  | .payloadConflict instruction =>
    "Program description error: instruction '" ++ instruction ++ "' sets both constant and pending"
  | .malformedDescription reason => "Program description error: " ++ reason
  | .unreadable name failure => "IO error: " ++ name ++ ": " ++ failure.message

end StackLinker
