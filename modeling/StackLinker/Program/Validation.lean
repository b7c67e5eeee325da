/-
# Validation

The pass leaves out what it cannot find. `Program.faults` lists all that it would leave out, in
order, and `Program.validate` reports the first of them.
-/
import StackLinker.Program.Basic

namespace StackLinker.Program

/-- What is wrong with the links of a node at place `id`: first its variable, then its target, then
its carrier. -/
def nodeFaults (program : Program) (id : NodeId) (n : Node) : List Fault :=
  let reference := n.referenced?.toList.filter fun name => !program.declarations.contains name
  let links := (n.target.toList ++ n.carrier.toList).filter fun link => !program.code.contains link
  reference.map (Fault.undefinedVariable · id) ++ links.map (Fault.danglingReference id)

/-- What is wrong with the link of a variable. -/
def slotFaults (program : Program) (name : String) (slot : Slot) : List Fault :=
  (slot.link.toList.filter fun id => !program.code.contains id).map (Fault.danglingEntry name)

/-- What is wrong with an entry of a table: first its name, then its place. -/
def entryFaults (program : Program) (name : String) (id : NodeId) : List Fault :=
  (if program.declarations.contains name then [] else [.undefinedVariable name id]) ++
    (if program.code.contains id then [] else [.danglingEntry name id])

/-- All that is wrong with the structure of a program: nodes first, then variables, then entries. -/
def faults (program : Program) : List Fault :=
  program.code.enumerate.flatMap (fun e => program.nodeFaults e.1 e.2) ++
    program.declarations.entries.flatMap (fun e => program.slotFaults e.1 e.2) ++
    program.tables.pairs.flatMap (fun e => program.entryFaults e.1 e.2)

/-- Reports the first fault in the structure of a program. -/
def validate (program : Program) : Except Fault Unit :=
  match program.faults with
  | [] => .ok ()
  | fault :: _ => .error fault

end StackLinker.Program
