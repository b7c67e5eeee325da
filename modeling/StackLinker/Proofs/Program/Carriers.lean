/-
# What carriers hold after the pass

Nothing keeps two jumps from sharing a carrier, and a valid program may send them to different
targets.  The carrier then holds the address of the last of these targets, so an earlier jump finds
the address of its own target only if no later jump with its carrier goes elsewhere.
-/
import StackLinker.Proofs.JumpAddress
import StackLinker.Proofs.Program.Resolve
import StackLinker.Proofs.Program.Validation

namespace StackLinker.Program

variable {program resolved : Program} {options : Options} {summary : Summary}

/-- In a valid program a node that a jump names as its carrier is asked for a target. -/
theorem targetFor?_of_validate (hvalid : program.validate = .ok ()) {id target carrier : NodeId}
    {n : Node} (hn : program.code.get? id = some n) (hjump : n.JumpsTo target carrier) :
    program.code.targetFor? carrier n = some target :=
  Code.targetFor?_eq_some_iff.mpr ⟨hjump, contains_of_validate hvalid hn (.inl hjump.target)⟩

/-- A node that is asked for a target has a last target. -/
theorem exists_lastTarget? {code : Code} {id target carrier : NodeId} {n : Node}
    (hn : code.get? id = some n) (htarget : code.targetFor? carrier n = some target) :
    ∃ last, code.lastTarget? carrier = some last := by
  cases hlast : code.lastTarget? carrier with
  | some last => exact ⟨last, rfl⟩
  | none =>
    have hnone := Code.lastTarget?_eq_none_iff.mp hlast n (List.mem_of_getElem? hn)
    rw [htarget] at hnone
    cases hnone

/-- After the pass a node holds the final address of its last target. -/
theorem Settles.exists_bytes {plan : StoragePlan}
    (h : program.Settles options plan summary resolved) {id last : NodeId}
    (hid : program.code.contains id = true) (hlast : program.code.lastTarget? id = some last) :
    ∃ bytes, (resolved.code.get? id).bind Node.payload = some (.address bytes) ∧
      resolved.code.addressOf? last = some bytes.decode := by
  obtain ⟨n, hn⟩ := (program.code.contains_iff_get? id).mp hid
  obtain ⟨target, htarget⟩ :=
    (program.code.contains_iff_get? last).mp (Code.contains_of_lastTarget? hlast)
  obtain ⟨_, -, -, hresolved⟩ := h.node hn
  obtain ⟨address, -, hle, htargetResolved⟩ := h.node htarget
  have haddress : resolved.code.addressOf? last = some address := by
    rw [Code.addressOf?, htargetResolved]
    rfl
  refine ⟨JumpAddress.ofNat address.toNat, ?_, ?_⟩
  · rw [hresolved, Option.bind_some, Code.finalPayload, h.carried, hlast, Option.bind_some,
      haddress]
    rfl
  · rw [haddress, JumpAddress.decode_ofNat hle]

/-- After the pass the carrier of a jump to a place in the code holds the final address of its last
target. -/
theorem Settles.exists_last_bytes {plan : StoragePlan}
    (h : program.Settles options plan summary resolved) {place target carrier : NodeId} {n : Node}
    (hn : program.code.get? place = some n) (hjump : n.JumpsTo target carrier)
    (htarget : program.code.contains target = true)
    (hcarrier : program.code.contains carrier = true) :
    ∃ last bytes, program.code.lastTarget? carrier = some last ∧
      (resolved.code.get? carrier).bind Node.payload = some (.address bytes) ∧
        resolved.code.addressOf? last = some bytes.decode := by
  obtain ⟨last, hlast⟩ := exists_lastTarget? hn (Code.targetFor?_eq_some_iff.mpr ⟨hjump, htarget⟩)
  obtain ⟨bytes, hbytes, haddress⟩ := h.exists_bytes hcarrier hlast
  exact ⟨last, bytes, hlast, hbytes, haddress⟩

/-- **Carriers hold last targets.**  In a valid program, after the pass, the carrier of a jump holds
the final address of the target of the last jump with that carrier.  That is the jump's own target
if no later jump with the carrier goes elsewhere, wherever the target lies and whatever else asks
for the payload. -/
theorem exists_last_jump_of_resolve (hvalid : program.validate = .ok ())
    (h : program.resolve options = (.ok summary, resolved)) {id target carrier : NodeId} {n : Node}
    (hn : program.code.get? id = some n) (hjump : n.JumpsTo target carrier) :
    ∃ place m last bytes, id ≤ place ∧ program.code.get? place = some m ∧
      m.JumpsTo last carrier ∧
      (∀ later m' target', place < later → program.code.get? later = some m' →
        ¬ m'.JumpsTo target' carrier) ∧
      (resolved.code.get? carrier).bind Node.payload = some (.address bytes) ∧
      resolved.code.addressOf? last = some bytes.decode ∧
      ((∀ later m' target', id < later → program.code.get? later = some m' →
        m'.JumpsTo target' carrier → target' = target) →
        resolved.code.addressOf? target = some bytes.decode) := by
  have htarget := targetFor?_of_validate hvalid hn hjump
  obtain ⟨last, hlast⟩ := exists_lastTarget? hn htarget
  obtain ⟨place, m, hm, hmTarget, hafter⟩ := Code.exists_last_of_lastTarget? hlast
  have hmJump := (Code.targetFor?_eq_some_iff.mp hmTarget).1
  obtain ⟨plan, hsettles⟩ := (pass_of_resolve h).settles
  obtain ⟨bytes, hbytes, haddress⟩ :=
    hsettles.exists_bytes (contains_of_validate hvalid hn (.inr hjump.carrier)) hlast
  -- The jump itself names the carrier, so the last jump that does is no earlier.
  have hle : id ≤ place := by
    rcases Nat.lt_or_ge place id with hlt | hle
    · have hnone := hafter id n hlt hn
      rw [htarget] at hnone
      cases hnone
    · exact hle
  refine ⟨place, m, last, bytes, hle, hm, hmJump, ?_, hbytes, haddress, ?_⟩
  · intro later m' target' hlater hm' hjump'
    have hnone := hafter later m' hlater hm'
    rw [targetFor?_of_validate hvalid hm' hjump'] at hnone
    cases hnone
  · intro hlater
    -- The last jump is this one, or a later one with the same target.
    have heq : last = target := by
      rcases Nat.lt_or_eq_of_le hle with hlt | rfl
      · exact hlater place m last hlt hm hmJump
      · rw [hm] at hn
        cases hn
        exact Option.some.inj (hmTarget.symm.trans htarget)
    rw [← heq]
    exact haddress

/-- Two jumps with one carrier: the first goes to the start, the second to the marker before it. -/
def sharedCarrier : Program where
  code := ⟨[
    { op := .target },
    { op := .push, payload := some (.pending 0), width := 1 },
    { op := .jump, target := some 0, carrier := some 1 },
    { op := .target },
    { op := .jump, target := some 3, carrier := some 1 }]⟩

/-- The second jump is the last with the shared carrier, and finds the address of its target
there. -/
theorem sharedCarrier_holds_last_target :
    sharedCarrier.validate = .ok () ∧ (sharedCarrier.resolve {}).1 = .ok ⟨0, 3, 2⟩ ∧
      ∃ bytes, ((sharedCarrier.resolve {}).2.code.get? 1).bind Node.payload =
          some (.address bytes) ∧
        (sharedCarrier.resolve {}).2.code.addressOf? 3 = some bytes.decode := by
  have hvalid : sharedCarrier.validate = .ok () := by decide
  have hsummary : (sharedCarrier.resolve {}).1 = .ok ⟨0, 3, 2⟩ := by decide
  have hjump : Node.JumpsTo { op := .jump, target := some 3, carrier := some 1 } 3 1 :=
    ⟨rfl, rfl, rfl⟩
  have hget : sharedCarrier.code.get? 4 =
      some { op := .jump, target := some 3, carrier := some 1 } := rfl
  obtain ⟨-, -, -, bytes, -, -, -, -, hbytes, -, howner⟩ :=
    exists_last_jump_of_resolve hvalid (Prod.ext hsummary rfl) hget hjump
  refine ⟨hvalid, hsummary, bytes, hbytes, howner ?_⟩
  intro later m target hlater hm _
  have hnone : sharedCarrier.code.get? later = none := List.getElem?_eq_none hlater
  rw [hnone] at hm
  cases hm

/-- Not every jump of a valid program finds the address of its own target with its carrier. -/
theorem not_forall_carrier_holds_target :
    ¬ ∀ (program resolved : Program) (options : Options) (summary : Summary)
        (id target carrier : NodeId) (n : Node),
      program.validate = .ok () → program.resolve options = (.ok summary, resolved) →
      program.code.get? id = some n → n.JumpsTo target carrier →
      ∃ bytes, (resolved.code.get? carrier).bind Node.payload = some (.address bytes) ∧
        resolved.code.addressOf? target = some bytes.decode := by
  intro hall
  have hresolve : sharedCarrier.resolve {} = (.ok ⟨0, 3, 2⟩, (sharedCarrier.resolve {}).2) :=
    Prod.ext (by decide) rfl
  obtain ⟨bytes, hbytes, haddress⟩ :=
    hall sharedCarrier _ {} _ 2 0 1 _ (by decide) hresolve rfl ⟨rfl, rfl, rfl⟩
  have hpayload : ((sharedCarrier.resolve {}).2.code.get? 1).bind Node.payload =
      some (.address (JumpAddress.ofNat 2)) := by decide
  have htarget : (sharedCarrier.resolve {}).2.code.addressOf? 0 = some 0 := by decide
  -- The carrier holds the second target, at 2, and the first lies at 0.
  rw [hpayload] at hbytes
  rw [htarget] at haddress
  cases hbytes
  cases haddress

end StackLinker.Program
