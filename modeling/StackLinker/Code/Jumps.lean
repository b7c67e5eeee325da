/-
# Jumps

A jump does not carry the address of its destination itself: its carrier does, mostly the push
before it. All jumps are collected before one payload is written, so an address that cannot be
carried leaves the code as it was.
-/
import StackLinker.Code.Basic

namespace StackLinker

/-- A node to be written, and the address it is to carry. -/
structure JumpSite where
  carrier : NodeId
  destination : Address
  deriving DecidableEq

namespace Code

/-- What a node asks to be written: nothing if it is no jump, if it lacks a link, if its target has
no address or if its carrier lies outside the code. -/
def jumpSite? (code : Code) (n : Node) : Option JumpSite :=
  if n.op.isJump then do
    let target ← n.target
    let carrier ← n.carrier
    let node ← code.get? target
    let destination ← node.address
    if code.contains carrier then some ⟨carrier, destination⟩ else none
  else none

/-- What the jumps of the code ask to be written, in order. -/
def jumpSites (code : Code) : List JumpSite := code.nodes.filterMap code.jumpSite?

/-- The bytes of each destination; the first that cannot be carried is the fault. -/
def encodeSites : List JumpSite → Except Fault (List (NodeId × JumpAddress))
  | [] => .ok []
  | site :: rest =>
    match JumpAddress.encode site.destination with
    | .error fault => .error fault
    | .ok bytes =>
      match encodeSites rest with
      | .error fault => .error fault
      | .ok patches => .ok ((site.carrier, bytes) :: patches)

/-- Writes addresses to their carriers; of two for one carrier the later stays. -/
def patch (code : Code) (patches : List (NodeId × JumpAddress)) : Code :=
  patches.foldl (fun code p => code.setPayload p.1 (.address p.2)) code

/-- Writes the address of each jump's destination to its carrier and counts the jumps; the second
part of the answer is the code that is left. -/
def relocateJumps (code : Code) : Except Fault Nat × Code :=
  match encodeSites code.jumpSites with
  | .error fault => (.error fault, code)
  | .ok patches => (.ok patches.length, code.patch patches)

end Code

end StackLinker
