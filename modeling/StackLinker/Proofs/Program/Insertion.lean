/-
# Inserting a marker into a program

A marker takes no units, is no jump and is not emitted, and nothing refers to one that is inserted.
So a program with a marker inserted is laid out, addressed and relocated as before, and the encoder
gets what it got before, except that the nodes behind the marker have other ids.
-/
import StackLinker.Proofs.Program.Encoding
import StackLinker.Proofs.Storage.Insertion

namespace StackLinker.Program

/-- The program with a node inserted at a place, and with all links, entries and variables moved on
that lead there or further. -/
def insertNode (program : Program) (place : NodeId) (n : Node) : Program :=
  { program with
    code := program.code.insertNode place n
    declarations := program.declarations.renumber place
    tables := program.tables.renumber place }

variable {program resolved resolved' : Program} {options : Options} {summary summary' : Summary}
  {place : Nat} {marker : Node}

/-- With plans that have the same numbers an old node is left the payload that it was left
before. -/
theorem finalPayload_insertNode {code : Code} {plan plan' : StoragePlan}
    (hplace : place ≤ code.size) (hmarker : marker.op.isMarker = true)
    (h : plan.Renumbers place plan') (base : Address) (id : NodeId) (n : Node) :
    (code.insertNode place marker).finalPayload plan' base (NodeId.past place id)
      (n.renumber place) =
      code.finalPayload plan base id n := by
  have hreported : (n.renumber place).reported? plan'.layout = n.reported? plan.layout := by
    rw [h.layout]
    rfl
  have hplanned : plan'.payload? (NodeId.past place id) = plan.payload? id := by
    rw [StoragePlan.payload?, StoragePlan.payload?, h.number]
  rw [Code.finalPayload, Code.finalPayload, Code.carried?_insertNode hplace hmarker, hreported,
    hplanned]
  rfl

/-- After both passes an old node is what it was, but for its links. -/
theorem Settles.get?_insertNode {plan plan' : StoragePlan} (hplace : place ≤ program.code.size)
    (hmarker : marker.op.isMarker = true) (h : program.Settles options plan summary resolved)
    (h' : (program.insertNode place marker).Settles options plan' summary' resolved')
    (id : NodeId) :
    resolved'.code.get? (NodeId.past place id) =
      (resolved.code.get? id).map (Node.renumber place) := by
  have hplans : plan.Renumbers place plan' := renumbers_planStorage hplace h.planned h'.planned
  have hget := Code.get?_insertNode hplace marker id
  cases hn : program.code.get? id with
  | none =>
    rw [hn] at hget
    have hnone : (program.insertNode place marker).code.get? (NodeId.past place id) = none := hget
    rw [h'.get?_code, h.get?_code, hn, hnone]
    rfl
  | some n =>
    rw [hn] at hget
    obtain ⟨address, hsum, -, hresolved⟩ := h.node hn
    obtain ⟨address', hsum', -, hresolved'⟩ := h'.node hget
    -- As many units lie before the node, so its addresses are the same.
    have haddress : address' = address := by
      rw [← UInt64.toNat_inj, hsum, hsum']
      exact congrArg _ (Code.unitsBefore_insertNode hplace hmarker id)
    have hpayload := finalPayload_insertNode hplace hmarker hplans options.addressBase id n
    rw [hresolved, hresolved', haddress, Option.map_some]
    exact congrArg (fun payload => some { n.renumber place with payload, address := some address })
      hpayload

/-- **Markers are transparent.**  If a program and the same program with a marker inserted, whatever
the marker holds, are both resolved with the same options, then their summaries and layouts are
equal, every old node has at its new place the address and the payload that it has at its old one,
and the encoder gets the same instructions, or the same fault, with the new ids. -/
theorem resolve_insertNode (hplace : place ≤ program.code.size)
    (hmarker : marker.op.isMarker = true) (h : program.resolve options = (.ok summary, resolved))
    (h' : (program.insertNode place marker).resolve options = (.ok summary', resolved')) :
    summary' = summary ∧ resolved'.layout = resolved.layout ∧
      (∀ id, resolved'.code.addressOf? (NodeId.past place id) = resolved.code.addressOf? id ∧
        (resolved'.code.get? (NodeId.past place id)).bind Node.payload =
          (resolved.code.get? id).bind Node.payload) ∧
      resolved'.code.emit =
        (resolved.code.emit.map (List.map (Emission.renumber place))).mapError
          (Fault.renumber place) := by
  obtain ⟨plan, hsettles⟩ := (pass_of_resolve h).settles
  obtain ⟨plan', hsettles'⟩ := (pass_of_resolve h').settles
  have hplans : plan.Renumbers place plan' :=
    renumbers_planStorage hplace hsettles.planned hsettles'.planned
  have hget := hsettles.get?_insertNode hplace hmarker hsettles'
  refine ⟨?_, ?_, ?_, ?_⟩
  · have hmemory : summary'.memoryStop = summary.memoryStop := by
      rw [hsettles.memoryStop, hsettles'.memoryStop, hplans.layout]
    have haddress : summary'.addressStop = summary.addressStop := by
      rw [← UInt64.toNat_inj, hsettles.addressStop, hsettles'.addressStop]
      exact congrArg _ (Code.span_insertNode hmarker)
    have hrelocated : summary'.relocated = summary.relocated := by
      rw [hsettles.relocated, hsettles'.relocated]
      exact Code.countP_relocates_insertNode hplace hmarker
    obtain ⟨memoryStop, addressStop, relocated⟩ := summary
    obtain ⟨memoryStop', addressStop', relocated'⟩ := summary'
    cases hmemory
    cases haddress
    cases hrelocated
    rfl
  · rw [hsettles.frame, hsettles'.frame, hplans.layout]
  · intro id
    rw [Code.addressOf?, Code.addressOf?, hget]
    cases resolved.code.get? id <;> exact ⟨rfl, rfl⟩
  · -- The code after the pass is the old one with what the pass has made of the marker inserted.
    obtain ⟨_, -, -, hself⟩ := hsettles'.node (Code.get?_insertNode_self hplace marker)
    rw [Code.eq_insertNode (hsettles.size_code ▸ hplace) hself hget]
    exact Code.emit_insertNode (hsettles.size_code ▸ hplace) hmarker

/-- A marker with everything that a node can hold. -/
def loadedMarker : Node where
  op := .ignore
  payload := some (.pending 7)
  reference := some "s"
  target := some 0
  carrier := some 1
  width := 9

/-- A loaded marker among overlapping links moves an entry and a carrier on, and changes no address;
before an entry that is refused it changes the id in the fault. -/
theorem loadedMarker_transparent :
    (overlapping.resolve {}).1 = .ok ⟨3, 5, 1⟩ ∧
    ((overlapping.insertNode 2 loadedMarker).resolve {}).1 = .ok ⟨3, 5, 1⟩ ∧
    ((overlapping.insertNode 2 loadedMarker).resolve {}).2.code.addressOf? 3 =
      (overlapping.resolve {}).2.code.addressOf? 2 ∧
    ((overlapping.insertNode 2 loadedMarker).resolve {}).2.code.emit =
      ((overlapping.resolve {}).2.code.emit.map (List.map (Emission.renumber 2))).mapError
        (Fault.renumber 2) ∧
    ((stranded.insertNode 0 loadedMarker).resolve {}).2.code.emit =
      .error (.unresolvedPayload 1) := by
  have hsummary : (overlapping.resolve {}).1 = .ok ⟨3, 5, 1⟩ := by decide
  have hsummary' : ((overlapping.insertNode 2 loadedMarker).resolve {}).1 = .ok ⟨3, 5, 1⟩ := by
    decide
  have hstranded : (stranded.resolve {}).1 = .ok ⟨1, 1, 0⟩ := by decide
  have hstranded' : ((stranded.insertNode 0 loadedMarker).resolve {}).1 = .ok ⟨1, 1, 0⟩ := by decide
  obtain ⟨-, -, hkept, hemit⟩ :=
    resolve_insertNode (by decide) rfl (Prod.ext hsummary rfl) (Prod.ext hsummary' rfl)
  have hrefused : (stranded.resolve {}).2.code.emit = .error (.unresolvedPayload 0) := by decide
  have hfault : ((stranded.insertNode 0 loadedMarker).resolve {}).2.code.emit =
      ((stranded.resolve {}).2.code.emit.map (List.map (Emission.renumber 0))).mapError
        (Fault.renumber 0) :=
    (resolve_insertNode (by decide) rfl (Prod.ext hstranded rfl) (Prod.ext hstranded' rfl)).2.2.2
  rw [hrefused] at hfault
  exact ⟨hsummary, hsummary', (hkept 2).1, hemit, hfault⟩

end StackLinker.Program
