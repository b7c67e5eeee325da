/-
# Addresses of code

Each node has the address of the first unit it takes: the base for the first node, and for every
other the address of the node before it and the units which that node takes. Any node may be the
destination of a jump, so every address has to be one that a jump can carry.
-/
import StackLinker.Code.Basic
import StackLinker.Storage.Layout

namespace StackLinker

/-- The addresses of nodes in order, and the address after the last unit. -/
structure AddressPlan where
  /-- The address of each node. -/
  addresses : List Address
  /-- The address after the last unit. -/
  stop : Address
  deriving DecidableEq

/-! ## Planning -/

namespace Code

/-- The addresses of nodes, the first of which has place `id` and address `address`. -/
def planFrom (id : NodeId) (address : Address) : List Node → Except Fault AddressPlan
  | [] => .ok ⟨[], address⟩
  | n :: rest =>
    if JumpAddress.highest < address.toNat then .error (.addressOverflow address)
    else
      match n.units id with
      | .error fault => .error fault
      | .ok units =>
        match address.add? units with
        | none => .error (.addressOverflow address)
        | some next =>
          match planFrom (id + 1) next rest with
          | .error fault => .error fault
          | .ok plan => .ok ⟨address :: plan.addresses, plan.stop⟩

/-- The addresses of the code from a base. -/
def planAddresses (code : Code) (base : Address) : Except Fault AddressPlan :=
  planFrom 0 base code.nodes

end Code

/-! ## Writing -/

/-- The node with an address, and with the reported position of the variable that it refers to. -/
def Node.place (layout : Layout) (n : Node) (address : Address) : Node :=
  match n.referenced?.bind layout.position? with
  | some position => { n with address := some address, payload := some (.number position) }
  | none => { n with address := some address }

/-- Gives every node its address and every node with a reference the position of its variable, and
answers with the address after the last unit; the second part of the answer is the code that is
left. -/
def Code.assignAddresses (code : Code) (layout : Layout) (base : Address) :
    Except Fault Address × Code :=
  match code.planAddresses base with
  | .error fault => (.error fault, code)
  | .ok plan => (.ok plan.stop, ⟨code.nodes.zipWith (Node.place layout) plan.addresses⟩)

end StackLinker
