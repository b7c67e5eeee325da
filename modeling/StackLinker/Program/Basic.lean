/-
# Programs

Code with the variables and tables it depends on, and the pass over them: place the variables, shift
what depends on them, address the code, relocate its jumps. The pass runs once, since final payloads
cannot be told from relative ones; its plans are made before the first payload is written.
-/
import StackLinker.Code.Addresses
import StackLinker.Code.Jumps
import StackLinker.Storage.Plan

namespace StackLinker

/-- Where the pass starts to count. -/
structure Options where
  /-- The address of the first instruction. -/
  addressBase : Address := 0
  /-- The offset of the first variable. -/
  memoryBase : Offset := 0
  deriving DecidableEq

/-- What a pass did. -/
structure Summary where
  /-- The offset after the last variable. -/
  memoryStop : Offset
  /-- The address after the last instruction. -/
  addressStop : Address
  relocated : Nat
  deriving DecidableEq

/-- Code with the variables and tables it depends on. -/
structure Program where
  code : Code := {}
  declarations : Declarations := ∅
  tables : EntryTables := {}
  /-- Where the pass put the variables. -/
  layout : Option Layout := none
  /-- Whether the pass has begun to write. -/
  started : Bool := false
  deriving DecidableEq

namespace Program

/-! ## The pass -/

/-- Writes a storage plan, then addresses, then jumps.  A fault leaves the program as far as it was
written. -/
def commit (program : Program) (options : Options) (plan : StoragePlan) :
    Except Fault Summary × Program :=
  let shifted := plan.apply program.code
  match shifted.assignAddresses plan.layout options.addressBase with
  | (.error fault, code) => (.error fault, { program with code, started := true })
  | (.ok stop, addressed) =>
    match addressed.relocateJumps with
    | (.error fault, code) => (.error fault, { program with code, started := true })
    | (.ok count, code) =>
      (.ok ⟨plan.layout.stop, stop, count⟩,
        { program with code, layout := some plan.layout, started := true })

/-- Runs the pass, unless it has run before.  Offsets and addresses are planned before anything is
written. -/
def resolve (program : Program) (options : Options) : Except Fault Summary × Program :=
  if program.started then (.error .alreadyResolved, program)
  else
    match planStorage program.declarations program.tables program.code options.memoryBase with
    | .error fault => (.error fault, program)
    | .ok plan =>
      match program.code.planAddresses options.addressBase with
      | .error fault => (.error fault, program)
      | .ok _ => program.commit options plan

/-! ## Results -/

/-- Tells whether the pass is done. -/
def isResolved (program : Program) : Bool := program.layout.isSome

/-- The offset that the pass reported for a variable. -/
def offsetOf? (program : Program) (name : String) : Option Offset :=
  program.layout.bind fun layout => layout.position? name

/-- The program before any pass, with the code as it is now. -/
def rewrap (program : Program) : Program :=
  { code := program.code, declarations := program.declarations, tables := program.tables }

end Program

end StackLinker
