/-
# Addressing again

Addresses, and the payloads that references and jumps ask for, are made from what neither writes:
operations, widths, links and references.  So code that has been addressed and relocated can be
addressed from another base and relocated again, and nothing is left of the first time.
-/
import StackLinker.Proofs.Code.Relocation

namespace StackLinker

/-- Addresses the code from a base and relocates its jumps; with the code come the address after its
last unit and the number of relocated jumps. -/
def Code.readdress (code : Code) (layout : Layout) (base : Address) :
    Except Fault (Code × Address × Nat) :=
  match code.assignAddresses layout base with
  | (.error fault, _) => .error fault
  | (.ok stop, addressed) =>
    match addressed.relocateJumps with
    | (.error fault, _) => .error fault
    | (.ok count, relocated) => .ok (relocated, stop, count)

/-! ## One node -/

/-- The node with a new address, and with the address that it is to carry as its payload, else with
what its variable reports, else with its own payload. -/
def Node.readdressed (layout : Layout) (carried : Option Payload) (address : Option Address)
    (n : Node) :
    Node :=
  { n.overwrite (carried.or (n.reported? layout)) with address }

/-- **Absorption.**  If a node that is to carry no address the second time was to carry none the
first time, nothing is left of the first. -/
theorem Node.readdressed_readdressed (layout : Layout) {first later : Option Payload}
    (h : later = none → first = none) (address address' : Option Address) (n : Node) :
    (n.readdressed layout first address).readdressed layout later address' =
      n.readdressed layout later address' := by
  have hreported : (n.readdressed layout first address).reported? layout = n.reported? layout := rfl
  have hpayload :
      (later.or (n.reported? layout)).or ((first.or (n.reported? layout)).or n.payload) =
        (later.or (n.reported? layout)).or n.payload := by
    cases later with
    | some payload => rfl
    | none =>
      rw [h rfl, Option.none_or]
      cases n.reported? layout <;> rfl
  rw [readdressed, hreported]
  unfold readdressed overwrite
  rw [hpayload]

/-! ## The whole code -/

namespace Code

variable {code : Code} {base base' : Address} {plan plan' : AddressPlan}

/-- Whether a node is to carry an address does not depend on the base. -/
theorem carried?_eq_none_of_base {id : NodeId} (h : code.carried? base' id = none) :
    code.carried? base id = none :=
  carried?_eq_none_iff.mpr (carried?_eq_none_iff.mp h)

/-- Code that can be addressed can be relocated after, and then each node is readdressed. -/
theorem readdress_of_planAddresses (layout : Layout) (h : code.planAddresses base = .ok plan) :
    ∃ relocated, code.readdress layout base =
        .ok (relocated, plan.stop, code.nodes.countP code.relocates) ∧
      ∀ id, relocated.get? id = (code.get? id).map
        (Node.readdressed layout (code.carried? base id) plan.addresses[id]?) := by
  obtain ⟨relocated, hrelocated, hget⟩ := relocateJumps_placeAll layout h
  refine ⟨relocated, ?_, hget⟩
  simp only [readdress, assignAddresses_of_planAddresses layout h, hrelocated]

/-- Readdressing changes payloads and addresses alone. -/
theorem outline_of_readdress {layout : Layout} {first : Code × Address × Nat}
    (h : code.planAddresses base = .ok plan) (hfirst : code.readdress layout base = .ok first) :
    first.1.outline = code.outline := by
  obtain ⟨relocated, hrelocated, hget⟩ := readdress_of_planAddresses layout h
  rw [hrelocated] at hfirst
  cases hfirst
  exact outline_eq_of_skeleton (skeleton_eq_of_get? hget fun _ _ => rfl)

/-- Readdressing code that has been readdressed is readdressing the code as it was. -/
theorem readdress_readdress {layout : Layout} {first : Code × Address × Nat}
    (h : code.planAddresses base = .ok plan) (h' : code.planAddresses base' = .ok plan')
    (hfirst : code.readdress layout base = .ok first) :
    first.1.readdress layout base' = code.readdress layout base' := by
  have houtline := outline_of_readdress h hfirst
  obtain ⟨relocated, hrelocated, hget⟩ := readdress_of_planAddresses layout h
  rw [hrelocated] at hfirst
  cases hfirst
  -- The outline is all that a plan reads, so the second plan is the one for the code as it was.
  obtain ⟨again, hagain, hgetAgain⟩ :=
    readdress_of_planAddresses layout ((planAddresses_eq_of_outline houtline base').trans h')
  obtain ⟨final, hfinal, hgetFinal⟩ := readdress_of_planAddresses layout h'
  have hcount : relocated.nodes.countP relocated.relocates = code.nodes.countP code.relocates := by
    rw [← length_carriers, carriers_eq_of_outline houtline, length_carriers]
  have hcode : again = final := by
    apply ext_get?
    intro id
    rw [hgetAgain, hget, hgetFinal, Option.map_map, carried?_eq_of_outline houtline]
    congr 1
    funext n
    exact n.readdressed_readdressed layout carried?_eq_none_of_base _ _
  rw [hagain, hfinal, hcode, hcount]

/-- **Earlier addressing is absorbed.**  If code can be addressed from two bases, addressing it from
the first and relocating its jumps, and then addressing it from the second and relocating them
again, is the same as doing so from the second alone: the same code, the same end and the same
number of jumps.  Doing so twice from one base is doing it once. -/
theorem readdress_absorbs (layout : Layout) (h : code.planAddresses base = .ok plan)
    (h' : code.planAddresses base' = .ok plan') :
    ∃ first final, code.readdress layout base = .ok first ∧
      code.readdress layout base' = .ok final ∧
      first.1.readdress layout base' = .ok final ∧ final.1.readdress layout base' = .ok final := by
  obtain ⟨first, hfirst, -⟩ := readdress_of_planAddresses layout h
  obtain ⟨final, hfinal, -⟩ := readdress_of_planAddresses layout h'
  have hagain := readdress_readdress h h' hfirst
  have htwice := readdress_readdress h' h' hfinal
  exact ⟨_, _, hfirst, hfinal, hagain.trans hfinal, htwice.trans hfinal⟩

/-- A jump back and one forward.  The carrier of the first refers to a variable too, the carrier of
the second has an old payload and the first marker an old address. -/
def crossedJumps : Code :=
  ⟨[{ op := .target, address := some 99 },
    { op := .push, payload := some (.pending 5), reference := some "x", width := 2 },
    { op := .jump, target := some 0, carrier := some 1 },
    { op := .push, payload := some (.literal (.text "old")), width := 4 },
    { op := .jumpi, target := some 5, carrier := some 3 },
    { op := .target }]⟩

/-- Addressed from 16 and then from 1000 the jumps carry what they carry if addressed from 1000 at
once, also where the variable has written its position in between. -/
theorem crossedJumps_absorb :
    let layout : Layout := ⟨OrderedMap.insert ∅ "x" ⟨7, 7⟩, 8⟩
    ∃ first final, crossedJumps.readdress layout 16 = .ok first ∧
      crossedJumps.readdress layout 1000 = .ok final ∧ first.1 ≠ final.1 ∧
      first.1.readdress layout 1000 = .ok final ∧ final.1.readdress layout 1000 = .ok final ∧
      final.2 = (1008, 2) ∧
      (final.1.get? 1).bind Node.payload = some (.address (JumpAddress.ofNat 1000)) := by
  intro layout
  obtain ⟨plan, hplan⟩ : ∃ plan, crossedJumps.planAddresses 16 = .ok plan := ⟨_, rfl⟩
  obtain ⟨plan', hplan'⟩ : ∃ plan, crossedJumps.planAddresses 1000 = .ok plan := ⟨_, rfl⟩
  obtain ⟨first, final, hfirst, hfinal, hagain, htwice⟩ := readdress_absorbs layout hplan hplan'
  have hcarried : (crossedJumps.readdress layout 16).map
      (fun first => (first.1.get? 1).bind Node.payload) =
        .ok (some (.address (JumpAddress.ofNat 16))) := by decide
  have hcarried' : (crossedJumps.readdress layout 1000).map
      (fun final => (final.2, (final.1.get? 1).bind Node.payload)) =
        .ok ((1008, 2), some (.address (JumpAddress.ofNat 1000))) := by decide
  rw [hfirst] at hcarried
  rw [hfinal] at hcarried'
  obtain ⟨hsummary, hpayload'⟩ := Prod.mk.inj (Except.ok.inj hcarried')
  have hpayload : (first.1.get? 1).bind Node.payload = some (.address (JumpAddress.ofNat 16)) :=
    Except.ok.inj hcarried
  refine ⟨first, final, hfirst, hfinal, ?_, hagain, htwice, hsummary, hpayload'⟩
  intro hsame
  rw [hsame, hpayload'] at hpayload
  exact absurd hpayload (by decide)

end Code

end StackLinker
