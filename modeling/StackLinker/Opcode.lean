/-
# Opcodes

The operations of the stack machine and their mnemonics. `Opcode.parse` reads a mnemonic with blanks
around it and letters of either case.
-/
import StackLinker.Fault
import StackLinker.Text.Blank

namespace StackLinker

/-! ## Operations -/

/-- An operation of the stack machine. -/
inductive Opcode where
  | target | ignore
  | push | jump | jumpi
  | stop | add | mul | sub | div | mod | exp | neg
  | lt | gt | eq | not | and | or | xor | byte
  | sha3 | pop | dup | swap
  | mload | mstore | mstore8 | sload | sstore
  | pc | msize | gas | call | leave
  | origin | caller | callvalue | calldataload
  deriving DecidableEq

namespace Opcode

/-- All operations. -/
def all : List Opcode :=
  [target, ignore, push, jump, jumpi, stop, add, mul, sub, div, mod, exp, neg, lt, gt, eq, not, and,
    or, xor, byte, sha3, pop, dup, swap, mload, mstore, mstore8, sload, sstore, pc, msize, gas,
    call, leave, origin, caller, callvalue, calldataload]

/-- The mnemonic of an operation. -/
def mnemonic : Opcode → String
  | target => "target"
  | ignore => "ignore"
  | push => "push"
  | jump => "jump"
  | jumpi => "jumpi"
  | stop => "stop"
  | add => "add"
  | mul => "mul"
  | sub => "sub"
  | div => "div"
  | mod => "mod"
  | exp => "exp"
  | neg => "neg"
  | lt => "lt"
  | gt => "gt"
  | eq => "eq"
  | not => "not"
  | and => "and"
  | or => "or"
  | xor => "xor"
  | byte => "byte"
  | sha3 => "sha3"
  | pop => "pop"
  | dup => "dup"
  | swap => "swap"
  | mload => "mload"
  | mstore => "mstore"
  | mstore8 => "mstore8"
  | sload => "sload"
  | sstore => "sstore"
  | pc => "pc"
  | msize => "msize"
  | gas => "gas"
  | call => "call"
  | leave => "return"
  | origin => "origin"
  | caller => "caller"
  | callvalue => "callvalue"
  | calldataload => "calldataload"

/-- Tells whether an operation only marks a place: it takes no address units and is not emitted. -/
def isMarker : Opcode → Bool
  | target | ignore => true
  | _ => false

/-- Tells whether an operation transfers control to its target. -/
def isJump : Opcode → Bool
  | jump | jumpi => true
  | _ => false

/-! ## Reading a mnemonic -/

/-- The operation with a given mnemonic. -/
def ofMnemonic? (s : String) : Option Opcode := all.find? fun op => op.mnemonic == s

/-- Reads a mnemonic; blanks around it and the case of ASCII letters do not count. -/
def parse (text : String) : Except Fault Opcode :=
  match ofMnemonic? (String.ofList ((Text.trimChars text.toList).map Char.toLower)) with
  | some op => .ok op
  | none => .error (.unknownOpcode text)

/-- Every operation is listed. -/
theorem mem_all (op : Opcode) : op ∈ all := by
  cases op <;> decide

/-- A mnemonic names its operation. -/
theorem ofMnemonic?_mnemonic (op : Opcode) : ofMnemonic? op.mnemonic = some op := by
  cases op <;> decide

end Opcode

end StackLinker
