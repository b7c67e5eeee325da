/-
# Emission

What the encoder gets: the nodes that take address units, in order, each with its address and its
literal.
-/
import StackLinker.Code.Basic

namespace StackLinker

/-- An instruction as the encoder gets it. -/
structure Emission where
  id : NodeId
  address : Address
  op : Opcode
  literal : Option Literal
  deriving DecidableEq

/-- The instruction that a node, at place `id`, becomes; it needs an address and no payload that
still waits. -/
def Node.emit (id : NodeId) (n : Node) : Except Fault Emission :=
  match n.address with
  | none => .error (.notAddressed id)
  | some address =>
    match n.payload with
    | some (.pending _) => .error (.unresolvedPayload id)
    | some (.literal value) => .ok ⟨id, address, n.op, some value⟩
    | none => .ok ⟨id, address, n.op, none⟩

/-- The instructions for the encoder; the first node that cannot be emitted is the fault. -/
def Code.emit (code : Code) : Except Fault (List Emission) :=
  (code.enumerate.filter fun e => !e.2.op.isMarker).mapM fun e => e.2.emit e.1

end StackLinker
