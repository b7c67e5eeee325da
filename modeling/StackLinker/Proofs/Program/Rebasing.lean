/-
# Moving code to another base

Addresses and jumps read the outline of the code and nothing else: no payload, no name and no offset
of a variable reaches them.  So two programs with nodes of one shape, resolved from bases that
differ by some distance, have addresses and destinations that differ by that distance, and the same
nodes are patched.
-/
import StackLinker.Proofs.Pairing
import StackLinker.Proofs.Program.Carriers

namespace StackLinker

/-! ## Shapes -/

/-- Two nodes with the same operation, width and links.  Payloads, references and addresses may
differ. -/
structure Node.SameShape (n n' : Node) : Prop where
  op : n.op = n'.op
  width : n.width = n'.width
  target : n.target = n'.target
  carrier : n.carrier = n'.carrier

/-- Nodes of one shape have one outline. -/
theorem Node.SameShape.outline_eq {n n' : Node} (h : n.SameShape n') : n.outline = n'.outline := by
  rw [outline, outline, skeleton, skeleton, h.op, h.width, h.target, h.carrier]

/-- Code with nodes of one shape has one outline. -/
theorem Code.outline_eq_of_sameShape {code code' : Code}
    (h : List.Forall₂ Node.SameShape code.nodes code'.nodes) : code.outline = code'.outline :=
  map_eq_of_forall₂ h fun _ _ hshape => hshape.outline_eq

/-- **Room below.**  If code of one shape can be addressed from a base, it can be addressed from
every lower one. -/
theorem Code.exists_planAddresses_of_le {code code' : Code} {base base' : Address}
    (h : code.outline = code'.outline) (hle : base.toNat ≤ base'.toNat)
    (hplan : ∃ plan, code'.planAddresses base' = .ok plan) :
    ∃ plan, code.planAddresses base = .ok plan := by
  rw [planAddresses_eq_of_outline h]
  obtain ⟨hsized, hreach⟩ := exists_planFrom_iff.mp hplan
  refine exists_planFrom_iff.mpr ⟨hsized, ?_⟩
  intro place hplace
  have := hreach place hplace
  omega

namespace Program

variable {program resolved : Program} {options : Options} {summary : Summary} {plan : StoragePlan}

/-! ## Patches -/

/-- The code that a pass relocates: the storage plan is written, and every node has its address. -/
def placed (program : Program) (options : Options) : Except Fault Code :=
  match assignStorage program.declarations program.tables program.code options.memoryBase with
  | (.error fault, _) => .error fault
  | (.ok layout, shifted) =>
    match shifted.assignAddresses layout options.addressBase with
    | (.error fault, _) => .error fault
    | (.ok _, addressed) => .ok addressed

/-- The nodes that relocation patches, in the order in which it does. -/
def patched (program : Program) (options : Options) : List NodeId :=
  match program.placed options with
  | .ok code => code.jumpSites.map JumpSite.carrier
  | .error _ => []

/-- A pass that succeeds relocates the code that the stages before have placed. -/
theorem exists_placed_of_resolve (h : program.resolve options = (.ok summary, resolved)) :
    ∃ code, program.placed options = .ok code ∧
      code.relocateJumps = (.ok summary.relocated, resolved.code) ∧
        code.Addressed ∧ code.outline = program.code.outline := by
  cases pass_of_resolve h with
  | @resolved plan addresses relocated hstarted hplan haddresses hget =>
    have houtline := plan.outline_apply program.code
    have hshifted := (Code.planAddresses_eq_of_outline houtline _).trans haddresses
    have hlength := (Code.covers_of_planAddresses hshifted).length_addresses
    have hassign := Code.assignAddresses_of_planAddresses plan.layout hshifted
    refine ⟨_, ?_, ?_, Code.addressed_placeAll plan.layout hshifted,
      (Code.outline_placeAll plan.layout hlength).trans houtline⟩
    · simp only [placed, assignStorage, hplan, hassign]
    · obtain ⟨addressed, relocated', haddressed, hrelocated, hget'⟩ :=
        Code.stages_succeed plan haddresses
      -- Both are the program with its final payloads and its planned addresses.
      have hcode : relocated' = relocated := Code.ext_get? fun id => (hget' id).trans (hget id).symm
      rw [hassign] at haddressed
      cases haddressed
      rw [hrelocated, hcode]

/-- A pass patches the carriers of the jumps with both links in the code. -/
theorem patched_of_resolve (h : program.resolve options = (.ok summary, resolved)) :
    program.patched options = program.code.carriers := by
  obtain ⟨code, hplaced, -, haddressed, houtline⟩ := exists_placed_of_resolve h
  rw [patched, hplaced, ← Code.carriers_eq_of_outline houtline]
  exact Code.map_carrier_jumpSites_of_addressed haddressed

/-- A carrier is sent to the base and the units before some place, which the outline names. -/
theorem Settles.exists_bytes_of_mem_carriers (h : program.Settles options plan summary resolved)
    {id : NodeId} (hid : id ∈ program.code.carriers) :
    ∃ last bytes, program.code.lastTarget? id = some last ∧
      (resolved.code.get? id).bind Node.payload = some (.address bytes) ∧
        bytes.decode.toNat = options.addressBase.toNat + program.code.unitsBefore last := by
  obtain ⟨n, hn, hcarrier⟩ := List.mem_filterMap.mp hid
  obtain ⟨target, hjump, htarget, hcontains⟩ := Code.carrierOf?_eq_some_iff.mp hcarrier
  obtain ⟨place, hplace⟩ := List.getElem?_of_mem hn
  obtain ⟨last, bytes, hlast, hbytes, hlastAddress⟩ :=
    h.exists_last_bytes hplace hjump htarget hcontains
  have hlastIn : resolved.code.contains last = true := by
    rw [Code.contains_eq_of_outline h.outline_code]
    exact Code.contains_of_lastTarget? hlast
  obtain ⟨address, haddress, hsum, -⟩ := h.exists_addressOf? hlastIn
  refine ⟨last, bytes, hlast, hbytes, ?_⟩
  rw [hlastAddress] at haddress
  rw [Option.some.inj haddress, hsum]

/-! ## Two passes -/

/-- **Code moves with its base.**  If two programs with nodes of one shape are resolved from bases
that differ by a distance, all their addresses and the stops differ by that distance, and so do the
destinations that are patched; which nodes are patched, and how many jumps are relocated, is the
same.  Whatever can be addressed from a base can be addressed from every lower one. -/
theorem resolve_rebased {program program' : Program}
    (hshape : List.Forall₂ Node.SameShape program.code.nodes program'.code.nodes) :
    (∀ options options' summary summary' resolved resolved' distance,
      options'.addressBase.toNat = options.addressBase.toNat + distance →
      program.resolve options = (.ok summary, resolved) →
      program'.resolve options' = (.ok summary', resolved') →
        (∀ id, resolved.code.contains id = true → ∃ address address',
          resolved.code.addressOf? id = some address ∧
          resolved'.code.addressOf? id = some address' ∧
          address'.toNat = address.toNat + distance) ∧
        summary'.addressStop.toNat = summary.addressStop.toNat + distance ∧
        summary'.relocated = summary.relocated ∧
        program'.patched options' = program.patched options ∧
        ∀ id ∈ program.patched options, ∃ bytes bytes',
          (resolved.code.get? id).bind Node.payload = some (.address bytes) ∧
          (resolved'.code.get? id).bind Node.payload = some (.address bytes') ∧
          bytes'.decode.toNat = bytes.decode.toNat + distance) ∧
    ∀ base base' : Address, base.toNat ≤ base'.toNat →
      (∃ plan, program'.code.planAddresses base' = .ok plan) →
        ∃ plan, program.code.planAddresses base = .ok plan := by
  have houtline := Code.outline_eq_of_sameShape hshape
  refine ⟨?_, fun base base' => Code.exists_planAddresses_of_le houtline⟩
  intro options options' summary summary' resolved resolved' distance hbase hresolve hresolve'
  obtain ⟨plan, hsettles⟩ := (pass_of_resolve hresolve).settles
  obtain ⟨plan', hsettles'⟩ := (pass_of_resolve hresolve').settles
  have hcarriers := Code.carriers_eq_of_outline houtline
  have hresolved : resolved.code.outline = resolved'.code.outline :=
    hsettles.outline_code.trans (houtline.trans hsettles'.outline_code.symm)
  refine ⟨?_, ?_, ?_, ?_, ?_⟩
  · intro id hid
    obtain ⟨address, haddress, hsum, -⟩ := hsettles.exists_addressOf? hid
    rw [Code.contains_eq_of_outline hresolved] at hid
    obtain ⟨address', haddress', hsum', -⟩ := hsettles'.exists_addressOf? hid
    rw [← Code.unitsBefore_eq_of_outline houtline] at hsum'
    exact ⟨address, address', haddress, haddress', by omega⟩
  · rw [hsettles.addressStop, hsettles'.addressStop, Code.span_nodes_eq_of_outline houtline]
    omega
  · rw [hsettles.relocated, hsettles'.relocated, ← Code.length_carriers, ← Code.length_carriers,
      hcarriers]
  · rw [patched_of_resolve hresolve, patched_of_resolve hresolve', hcarriers]
  · intro id hid
    rw [patched_of_resolve hresolve] at hid
    obtain ⟨last, bytes, hlast, hbytes, hsum⟩ := hsettles.exists_bytes_of_mem_carriers hid
    rw [hcarriers] at hid
    obtain ⟨last', bytes', hlast', hbytes', hsum'⟩ := hsettles'.exists_bytes_of_mem_carriers hid
    -- The outline says which jump is the last, so it is the same one in both runs.
    rw [← Code.lastTarget?_eq_of_outline houtline, hlast] at hlast'
    cases hlast'
    rw [← Code.unitsBefore_eq_of_outline houtline] at hsum'
    exact ⟨bytes, bytes', hbytes, hbytes', by omega⟩

/-- The jump back with a variable, to which the carrier refers, and with an old address. -/
def backJumpWithVariable : Program where
  code := ⟨[
    { op := .target, address := some 9 },
    { op := .push, payload := some (.pending 5), reference := some "x", width := 1 },
    { op := .jump, target := some 0, carrier := some 1 }]⟩
  declarations := OrderedMap.insert ∅ "x" { kind := .scalar, size := 4 }

/-- Both jumps back patch their carriers, and the second, resolved from 256, is sent 256 further. -/
theorem backJump_rebased :
    (backJump.resolve {}).1 = .ok ⟨0, 2, 1⟩ ∧
    (backJumpWithVariable.resolve ⟨256, 7⟩).1 = .ok ⟨11, 258, 1⟩ ∧
    backJumpWithVariable.patched ⟨256, 7⟩ = [1] ∧
    (∃ bytes bytes',
      ((backJump.resolve {}).2.code.get? 1).bind Node.payload = some (.address bytes) ∧
      ((backJumpWithVariable.resolve ⟨256, 7⟩).2.code.get? 1).bind Node.payload =
        some (.address bytes') ∧
      bytes'.decode.toNat = bytes.decode.toNat + 256) ∧
    ∃ plan, backJump.code.planAddresses 0 = .ok plan := by
  have hsummary : (backJump.resolve {}).1 = .ok ⟨0, 2, 1⟩ := by decide
  have hsummary' : (backJumpWithVariable.resolve ⟨256, 7⟩).1 = .ok ⟨11, 258, 1⟩ := by decide
  have hshape : List.Forall₂ Node.SameShape backJump.code.nodes backJumpWithVariable.code.nodes :=
    .cons ⟨rfl, rfl, rfl, rfl⟩ (.cons ⟨rfl, rfl, rfl, rfl⟩ (.cons ⟨rfl, rfl, rfl, rfl⟩ .nil))
  obtain ⟨hrebased, hlower⟩ := resolve_rebased hshape
  obtain ⟨-, -, -, hpatched, hbytes⟩ :=
    hrebased {} ⟨256, 7⟩ _ _ _ _ 256 rfl (Prod.ext hsummary rfl) (Prod.ext hsummary' rfl)
  have hone : backJump.patched {} = [1] := by decide
  refine ⟨hsummary, hsummary', hpatched.trans hone, hbytes 1 (by simp [hone]), ?_⟩
  exact hlower 0 256 (by decide) ⟨⟨[256, 256, 257], 258⟩, by decide⟩

end Program

end StackLinker
