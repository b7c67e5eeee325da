/-
# The whole pass

A pass refuses, and leaves the program as it was, or both its plans exist and all three stages
write.  Three kinds of links may ask for the payload of one node, along the code or against it: a
jump goes before a reference, a reference before the storage plan, and the plan before what the node
carried.
-/
import StackLinker.Program.Basic
import StackLinker.Proofs.Code.Relocation
import StackLinker.Proofs.Storage.Sweep

namespace StackLinker

/-! ## The three stages -/

/-- The payload that the pass leaves at a node: what the last jump asks it to carry, else the
reported position of its variable, else its planned number, else its own. -/
def Code.finalPayload (code : Code) (plan : StoragePlan) (base : Address) (id : NodeId) (n : Node) :
    Option Payload :=
  (code.carried? base id).or <| (n.reported? plan.layout).or <| (plan.payload? id).or n.payload

/-- The pass leaves a payload pending exactly if it was and no link asks for another. -/
theorem Code.finalPayload_eq_pending_iff {code : Code} {plan : StoragePlan} {base : Address}
    {id : NodeId} {n : Node} {relative : Offset} :
    code.finalPayload plan base id n = some (.pending relative) ↔
      code.carried? base id = none ∧ n.reported? plan.layout = none ∧ plan.payload? id = none ∧
        n.payload = some (.pending relative) := by
  have hcarried : code.carried? base id ≠ some (.pending relative) := by
    rw [carried?]
    cases code.lastTarget? id <;> simp [Payload.address]
  have hreported : n.reported? plan.layout ≠ some (.pending relative) := by
    rw [Node.reported?]
    cases n.referenced?.bind plan.layout.position? <;> simp [Payload.number]
  have hplanned : plan.payload? id ≠ some (.pending relative) := by
    rw [StoragePlan.payload?]
    cases plan.writes.get? id <;> simp [Payload.number]
  rw [finalPayload, Option.or_eq_some_iff, Option.or_eq_some_iff, Option.or_eq_some_iff]
  tauto

/-- **No stage fails after the first write.**  Writing payloads keeps the outline, so the addresses
planned before are those assigned after, and every destination is one that was planned. -/
theorem Code.stages_succeed {code : Code} {base : Address} {addresses : AddressPlan}
    (plan : StoragePlan) (h : code.planAddresses base = .ok addresses) :
    ∃ addressed relocated,
      (plan.apply code).assignAddresses plan.layout base = (.ok addresses.stop, addressed) ∧
      addressed.relocateJumps = (.ok (code.nodes.countP code.relocates), relocated) ∧
      ∀ id, relocated.get? id = (code.get? id).map fun n =>
        { n with
          payload := code.finalPayload plan base id n
          address := addresses.addresses[id]? } := by
  have houtline := plan.outline_apply code
  have hshifted : (plan.apply code).planAddresses base = .ok addresses :=
    (planAddresses_eq_of_outline houtline base).trans h
  obtain ⟨relocated, hrelocated, hget⟩ := relocateJumps_placeAll plan.layout hshifted
  refine ⟨_, relocated, assignAddresses_of_planAddresses plan.layout hshifted, ?_, ?_⟩
  · rw [hrelocated, ← Code.length_carriers, carriers_eq_of_outline houtline, length_carriers]
  · intro id
    rw [hget, plan.get?_apply, Option.map_map, carried?_eq_of_outline houtline]
    congr 1
    funext n
    -- References are part of what the plan has not written.
    have hreported : (n.overwrite (plan.payload? id)).reported? plan.layout =
        n.reported? plan.layout := rfl
    rw [Function.comp, Node.overwrite_overwrite, hreported, Node.overwrite, finalPayload,
      Option.or_assoc, Option.or_assoc]

namespace Program

/-! ## What a pass comes to -/

/-- The ways in which a pass can end: it refuses because it ran before, because the variables cannot
be placed or because the code cannot be addressed, or it writes all it has planned. -/
inductive Pass (program : Program) (options : Options) : Except Fault Summary × Program → Prop
  /-- The pass has run before. -/
  | refused (hstarted : program.started = true) :
    Pass program options (.error .alreadyResolved, program)
  /-- There is no storage plan. -/
  | unplaced {fault : Fault} (hstarted : program.started = false)
    (hplan : planStorage program.declarations program.tables program.code options.memoryBase =
      .error fault) :
    Pass program options (.error fault, program)
  /-- There is a storage plan, but no address plan. -/
  | unaddressed {fault : Fault} {plan : StoragePlan} (hstarted : program.started = false)
    (hplan : planStorage program.declarations program.tables program.code options.memoryBase =
      .ok plan)
    (haddresses : program.code.planAddresses options.addressBase = .error fault) :
    Pass program options (.error fault, program)
  /-- Both plans are there, and all stages have written. -/
  | resolved {plan : StoragePlan} {addresses : AddressPlan} {relocated : Code}
    (hstarted : program.started = false)
    (hplan : planStorage program.declarations program.tables program.code options.memoryBase =
      .ok plan)
    (haddresses : program.code.planAddresses options.addressBase = .ok addresses)
    (hget : ∀ id, relocated.get? id = (program.code.get? id).map fun n =>
      { n with
        payload := program.code.finalPayload plan options.addressBase id n
        address := addresses.addresses[id]? }) :
    Pass program options
      (.ok ⟨plan.layout.stop, addresses.stop, program.code.nodes.countP program.code.relocates⟩,
        { program with code := relocated, layout := some plan.layout, started := true })

/-- Every pass ends in one of these ways. -/
theorem pass_resolve (program : Program) (options : Options) :
    program.Pass options (program.resolve options) := by
  rw [resolve]
  cases hstarted : program.started with
  | true => exact .refused hstarted
  | false =>
    rw [if_neg Bool.false_ne_true]
    cases hplan : planStorage program.declarations program.tables program.code
        options.memoryBase with
    | error fault => exact .unplaced hstarted hplan
    | ok plan =>
      cases haddresses : program.code.planAddresses options.addressBase with
      | error fault => exact .unaddressed hstarted hplan haddresses
      | ok addresses =>
        obtain ⟨addressed, relocated, haddressed, hrelocated, hget⟩ :=
          Code.stages_succeed plan haddresses
        have hcommit : program.commit options plan =
            (.ok ⟨plan.layout.stop, addresses.stop,
                program.code.nodes.countP program.code.relocates⟩,
              { program with code := relocated, layout := some plan.layout, started := true }) := by
          simp only [commit, haddressed, hrelocated]
        simp only [hcommit]
        exact .resolved hstarted hplan haddresses hget

/-- An outcome of a pass is one of those in which a pass can end. -/
theorem pass_of_resolve {program : Program} {options : Options}
    {result : Except Fault Summary × Program} (h : program.resolve options = result) :
    program.Pass options result := h ▸ program.pass_resolve options

/-- A pass succeeds exactly if it has not run before and both plans can be made. -/
theorem resolve_succeeds_iff {program : Program} {options : Options} :
    (∃ summary, (program.resolve options).1 = .ok summary) ↔
      program.started = false ∧
        (∃ plan, planStorage program.declarations program.tables program.code options.memoryBase =
          .ok plan) ∧
        ∃ addresses, program.code.planAddresses options.addressBase = .ok addresses := by
  have hpass := program.pass_resolve options
  generalize program.resolve options = result at hpass
  cases hpass with
  | refused hstarted => simp [hstarted]
  | unplaced hstarted hplan => simp [hplan]
  | unaddressed hstarted hplan haddresses => simp [haddresses]
  | resolved hstarted hplan haddresses hget => simp [hstarted, hplan, haddresses]

/-- A pass that fails leaves the program as it was. -/
theorem resolve_of_error {program : Program} {options : Options} {fault : Fault}
    (h : (program.resolve options).1 = .error fault) : (program.resolve options).2 = program := by
  have hpass := program.pass_resolve options
  generalize program.resolve options = result at hpass h
  cases hpass with
  | refused hstarted => rfl
  | unplaced hstarted hplan => rfl
  | unaddressed hstarted hplan haddresses => rfl
  | resolved hstarted hplan haddresses hget => cases h

/-! ## What a pass leaves -/

/-- What a pass makes of a program with a storage plan, and what it says about it. -/
structure Settles (program : Program) (options : Options) (plan : StoragePlan) (summary : Summary)
    (resolved : Program) : Prop where
  /-- The plan is the one for the code before the pass. -/
  planned :
    planStorage program.declarations program.tables program.code options.memoryBase = .ok plan
  /-- Every node keeps what it is.  Its address is the base and the units before it, and its payload
  is the first that one of its links asks for. -/
  node : ∀ {id : NodeId} {n : Node}, program.code.get? id = some n → ∃ address : Address,
    address.toNat = options.addressBase.toNat + program.code.unitsBefore id ∧
      address.toNat ≤ JumpAddress.highest ∧
        resolved.code.get? id = some
          { n with
            payload := program.code.finalPayload plan options.addressBase id n
            address := some address }
  /-- The destinations that nodes carry are final addresses. -/
  carried : ∀ id, program.code.carried? options.addressBase id =
    ((program.code.lastTarget? id).bind resolved.code.addressOf?).map fun address =>
      .address (JumpAddress.ofNat address.toNat)
  /-- No node is added and none is lost. -/
  size_code : resolved.code.size = program.code.size
  /-- The variables and tables stay; the layout of the plan is kept. -/
  frame : resolved =
    { program with code := resolved.code, layout := some plan.layout, started := true }
  /-- A position is reported for the declared variables and for no others. -/
  reported : ∀ name, (resolved.offsetOf? name).isSome = program.declarations.contains name
  /-- The summary names the end of the layout. -/
  memoryStop : summary.memoryStop = plan.layout.stop
  /-- The summary names the address after the last unit. -/
  addressStop : summary.addressStop.toNat = options.addressBase.toNat + span program.code.nodes
  /-- The summary counts the jumps with both links in the code. -/
  relocated : summary.relocated = program.code.nodes.countP program.code.relocates

/-- A pass that succeeds settles the program with its storage plan. -/
theorem Pass.settles {program resolved : Program} {options : Options} {summary : Summary}
    (h : program.Pass options (.ok summary, resolved)) :
    ∃ plan, program.Settles options plan summary resolved := by
  cases h with
  | @resolved plan addresses relocated hstarted hplan haddresses hget =>
    have hnode : ∀ {id : NodeId} {n : Node}, program.code.get? id = some n → ∃ address : Address,
        address.toNat = options.addressBase.toNat + program.code.unitsBefore id ∧
          address.toNat ≤ JumpAddress.highest ∧
            relocated.get? id = some
              { n with
                payload := program.code.finalPayload plan options.addressBase id n
                address := some address } := by
      intro id n hn
      obtain ⟨address, haddress, htoNat, hle⟩ := Code.exists_address_of_planAddresses haddresses
        ((program.code.contains_iff_get? id).mpr ⟨n, hn⟩)
      refine ⟨address, htoNat, hle, ?_⟩
      rw [hget, hn, haddress]
      rfl
    have houtline : relocated.outline = program.code.outline :=
      Code.outline_eq_of_skeleton (Code.skeleton_eq_of_get? hget fun _ _ => rfl)
    refine ⟨plan, hplan, hnode, ?_, Code.size_eq_of_outline houtline, rfl,
      isSome_position?_of_planStorage hplan, rfl,
      (Code.covers_of_planAddresses haddresses).toNat_stop, rfl⟩
    intro id
    rw [Code.carried?]
    cases htarget : program.code.lastTarget? id with
    | none => rfl
    | some target =>
      -- The target is settled as well, and its address is the sum that was carried.
      obtain ⟨n, hn⟩ :=
        (program.code.contains_iff_get? target).mp (Code.contains_of_lastTarget? htarget)
      obtain ⟨address, htoNat, -, hresolved⟩ := hnode hn
      rw [Option.bind_some, Code.addressOf?, hresolved, Option.bind_some, Option.map_some,
        Option.map_some, htoNat]

namespace Settles

variable {program resolved : Program} {options : Options} {plan : StoragePlan} {summary : Summary}

/-- Every node of settled code is one of the program with a payload and an address of the pass. -/
theorem get?_code (h : program.Settles options plan summary resolved) (id : NodeId) :
    resolved.code.get? id = (program.code.get? id).map fun n =>
      { n with
        payload := program.code.finalPayload plan options.addressBase id n
        address := resolved.code.addressOf? id } := by
  cases hn : program.code.get? id with
  | none =>
    have hlength : resolved.code.nodes.length = program.code.nodes.length := h.size_code
    rw [Code.get?, List.getElem?_eq_none_iff] at hn
    rw [Code.get?, List.getElem?_eq_none (by omega), Option.map_none]
  | some n =>
    obtain ⟨address, -, -, hresolved⟩ := h.node hn
    rw [Code.addressOf?, hresolved]
    rfl

/-- A pass keeps the outline of the code. -/
theorem outline_code (h : program.Settles options plan summary resolved) :
    resolved.code.outline = program.code.outline :=
  Code.outline_eq_of_skeleton (Code.skeleton_eq_of_get? h.get?_code fun _ _ => rfl)

/-- In settled code every place has the base and the units before it as its address, and a jump can
carry it. -/
theorem exists_addressOf? (h : program.Settles options plan summary resolved) {id : NodeId}
    (hid : resolved.code.contains id = true) : ∃ address,
      resolved.code.addressOf? id = some address ∧
        address.toNat = options.addressBase.toNat + program.code.unitsBefore id ∧
          address.toNat ≤ JumpAddress.highest := by
  rw [Code.contains_eq_of_outline h.outline_code] at hid
  obtain ⟨n, hn⟩ := (program.code.contains_iff_get? id).mp hid
  obtain ⟨address, hsum, hle, hresolved⟩ := h.node hn
  refine ⟨address, ?_, hsum, hle⟩
  rw [Code.addressOf?, hresolved]
  rfl

/-- A pass gives every node an address. -/
theorem addressed (h : program.Settles options plan summary resolved) :
    resolved.code.Addressed := by
  intro id hid
  obtain ⟨address, haddress, -⟩ := h.exists_addressOf? hid
  exact ⟨address, haddress⟩

end Settles

/-- **What a successful pass does.**  For every program and all options the outcome is the one that
the storage plan of the code before the pass settles: addresses are sums of extents, a payload is
decided by the last jump that asks for it, else by its variable, else by the plan, and everything
else stays. -/
theorem exists_settles_of_resolve {program resolved : Program} {options : Options}
    {summary : Summary} (h : program.resolve options = (.ok summary, resolved)) :
    ∃ plan, program.Settles options plan summary resolved := by
  exact (pass_of_resolve h).settles

/-- A program in which links ask for one payload in several ways: a string entry has a reference,
and another has a reference and carries a jump back. -/
def overlapping : Program where
  code := ⟨[
    { op := .target },
    { op := .push, payload := some (.pending 3), reference := some "s", width := 2 },
    { op := .push, payload := some (.pending 1), reference := some "s", width := 1 },
    { op := .jump, target := some 0, carrier := some 2 },
    { op := .push, width := 1 }]⟩
  declarations := (OrderedMap.insert ∅ "s" { kind := .string, size := 2 }).insert "x"
    { kind := .scalar, size := 1, link := some 4 }
  tables := { strings := EntryTable.register (EntryTable.register ∅ "s" 1) "s" 2 }

/-- The pass settles a program with overlapping links. -/
theorem settles_overlapping :
    (overlapping.resolve {}).1 = .ok ⟨3, 5, 1⟩ ∧
      ∃ plan, overlapping.Settles {} plan ⟨3, 5, 1⟩ (overlapping.resolve {}).2 :=
  ⟨by decide, exists_settles_of_resolve (Prod.ext (by decide) rfl)⟩

/-- **A pass is all or nothing.**  Once both plans exist no stage fails; so a pass that fails has
written nothing, and a later pass does what it would have done without it. -/
theorem resolve_all_or_nothing (program : Program) (options : Options) :
    (∀ plan addresses,
      planStorage program.declarations program.tables program.code options.memoryBase = .ok plan →
      program.code.planAddresses options.addressBase = .ok addresses →
      ∃ addressed relocated count,
        (plan.apply program.code).assignAddresses plan.layout options.addressBase =
          (.ok addresses.stop, addressed) ∧
        addressed.relocateJumps = (.ok count, relocated)) ∧
    ∀ fault, (program.resolve options).1 = .error fault →
      (program.resolve options).2 = program ∧
        ∀ later, (program.resolve options).2.resolve later = program.resolve later ∧
          (program.started = false →
            ((∃ summary, ((program.resolve options).2.resolve later).1 = .ok summary) ↔
              (∃ plan, planStorage program.declarations program.tables program.code
                later.memoryBase = .ok plan) ∧
              ∃ addresses, program.code.planAddresses later.addressBase = .ok addresses)) := by
  constructor
  · intro plan addresses _ haddresses
    obtain ⟨addressed, relocated, haddressed, hrelocated, -⟩ :=
      Code.stages_succeed plan haddresses
    exact ⟨addressed, relocated, _, haddressed, hrelocated⟩
  · intro fault hfault
    have hkept := resolve_of_error hfault
    refine ⟨hkept, ?_⟩
    intro later
    rw [hkept]
    refine ⟨rfl, ?_⟩
    intro hstarted
    rw [resolve_succeeds_iff]
    exact and_iff_right hstarted

/-- A jump back to the start, carried by the node before it. -/
def backJump : Program where
  code := ⟨[
    { op := .target },
    { op := .push, width := 1 },
    { op := .jump, target := some 0, carrier := some 1 }]⟩

/-- All stages succeed on a jump back, and a base that is too high leaves it as it was. -/
theorem backJump_all_or_nothing :
    (∃ addressed relocated count,
      ((⟨⟨∅, 0⟩, ∅⟩ : StoragePlan).apply backJump.code).assignAddresses ⟨∅, 0⟩ 0 =
        (.ok 2, addressed) ∧ addressed.relocateJumps = (.ok count, relocated)) ∧
    (backJump.resolve ⟨0x80000000, 0⟩).2 = backJump ∧
      ∃ summary, ((backJump.resolve ⟨0x80000000, 0⟩).2.resolve {}).1 = .ok summary := by
  have hplan : planStorage backJump.declarations backJump.tables backJump.code 0 =
      .ok ⟨⟨∅, 0⟩, ∅⟩ := by decide
  have haddresses : backJump.code.planAddresses 0 = .ok ⟨[0, 0, 1], 2⟩ := by decide
  obtain ⟨hkept, hlater⟩ := (resolve_all_or_nothing backJump ⟨0x80000000, 0⟩).2
    (.addressOverflow 0x80000000) (by decide)
  refine ⟨?_, hkept, ?_⟩
  · exact (resolve_all_or_nothing backJump {}).1 _ _ hplan haddresses
  · exact ((hlater {}).2 rfl).mpr ⟨⟨_, hplan⟩, _, haddresses⟩

end Program

end StackLinker
