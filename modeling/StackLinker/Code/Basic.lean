/-
# Code

The instructions of a program in order. A node refers to other nodes by their place, so links stay
what they are when payloads and addresses are written.
-/
import StackLinker.Opcode
import StackLinker.Payload

namespace StackLinker

/-! ## Nodes -/

/-- An instruction. -/
structure Node where
  op : Opcode
  payload : Option Payload := none
  /-- The variable whose reported position becomes the payload. -/
  reference : Option String := none
  target : Option NodeId := none
  /-- The node that carries the address of the destination. -/
  carrier : Option NodeId := none
  /-- The number of address units that a push takes. -/
  width : UInt32 := 0
  /-- The address of the instruction, once it has one. -/
  address : Option Address := none
  deriving DecidableEq

namespace Node

/-- The name of the variable that the node refers to; an empty name is no reference. -/
def referenced? (n : Node) : Option String := n.reference.filter fun name => name ≠ ""

/-- The value that is shifted by the place of a variable; a node without payload counts from zero.
-/
def relativeOffset (n : Node) : Offset := (n.payload.map Payload.relativeOffset).getD 0

/-- The number of address units that the node takes: none for a marker, its width for a push and one
for every other operation. -/
def extent (n : Node) : Address :=
  if n.op.isMarker then 0 else if n.op = .push then n.width.toUInt64 else 1

/-- The extent of the node, at place `id`; a push has to have a width. -/
def units (id : NodeId) (n : Node) : Except Fault Address :=
  if n.op = .push ∧ n.width = 0 then .error (.zeroWidth id) else .ok n.extent

end Node

/-! ## Code -/

/-- The instructions of a program, in order. -/
structure Code where
  /-- The nodes, each at the place that its id says. -/
  nodes : List Node := []
  deriving DecidableEq

namespace Code

/-- The number of nodes. -/
def size (code : Code) : Nat := code.nodes.length

/-- Tells whether a place lies in the code. -/
def contains (code : Code) (id : NodeId) : Bool := id < code.size

/-- The node at a place. -/
def get? (code : Code) (id : NodeId) : Option Node := code.nodes[id]?

/-- The nodes with their ids, in order. -/
def enumerate (code : Code) : List (NodeId × Node) := code.nodes.zipIdx.map fun (n, id) => (id, n)

/-- The code with one more node at its end; the new node has the old size as its id. -/
def push (code : Code) (n : Node) : Code := ⟨code.nodes ++ [n]⟩

/-- The code with another node at a place, and as it was if the place lies outside. -/
def set (code : Code) (id : NodeId) (n : Node) : Code := ⟨code.nodes.set id n⟩

/-- The code with another payload at a place, and as it was if the place lies outside. -/
def setPayload (code : Code) (id : NodeId) (payload : Payload) : Code :=
  ⟨code.nodes.modify id fun n => { n with payload := some payload }⟩

end Code

end StackLinker
