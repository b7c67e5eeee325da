/-
# Relocating placed code

Once a plan has given every node its address, no destination is too high to be carried and no jump
with links in the code is left out: relocation cannot fail, and what each node carries can be read
off the code and the base alone.
-/
import StackLinker.Proofs.Code.Addresses
import StackLinker.Proofs.Code.Jumps

namespace StackLinker.Code

variable {code code' : Code} {base : Address} {plan : AddressPlan}

/-- The payload that the last jump asks a node to carry: the bytes of the sum of the base and the
units before its target. -/
def carried? (code : Code) (base : Address) (id : NodeId) : Option Payload :=
  (code.lastTarget? id).map fun target =>
    .address (JumpAddress.ofNat (base.toNat + code.unitsBefore target))

/-- A node carries no address exactly if no jump to a place in the code names it as its carrier. -/
theorem carried?_eq_none_iff {id : NodeId} :
    code.carried? base id = none ↔ ∀ place n target, code.get? place = some n →
      n.JumpsTo target id → code.contains target = false := by
  rw [carried?, Option.map_eq_none_iff, lastTarget?_eq_none_iff]
  constructor
  · intro h place n target hn hjump
    have hnone := h n (List.mem_of_getElem? hn)
    rw [← Bool.not_eq_true]
    intro hcontains
    rw [targetFor?_eq_some_iff.mpr ⟨hjump, hcontains⟩] at hnone
    cases hnone
  · intro h n hmem
    obtain ⟨place, hn⟩ := List.getElem?_of_mem hmem
    rw [Option.eq_none_iff_forall_ne_some]
    intro target htarget
    obtain ⟨hjump, hcontains⟩ := targetFor?_eq_some_iff.mp htarget
    rw [h place n target hn hjump] at hcontains
    cases hcontains

/-- The units before a place are part of the outline. -/
theorem unitsBefore_eq_of_outline (h : code.outline = code'.outline) (id : NodeId) :
    code.unitsBefore id = code'.unitsBefore id := by
  rw [unitsBefore, unitsBefore, ← span_map_outline, ← span_map_outline (code'.nodes.take id),
    List.map_take, List.map_take]
  exact congrArg (fun nodes => span (nodes.take id)) h

/-- What jumps ask to be carried is part of the outline. -/
theorem carried?_eq_of_outline (h : code.outline = code'.outline) (base : Address) (id : NodeId) :
    code.carried? base id = code'.carried? base id := by
  have hunits : code.unitsBefore = code'.unitsBefore := by
    funext target
    exact unitsBefore_eq_of_outline h target
  rw [carried?, carried?, lastTarget?_eq_of_outline h, hunits]

/-! ## Addresses of placed code -/

/-- A plan gives every place of the code the base and the units before it. -/
theorem exists_address_of_planAddresses (h : code.planAddresses base = .ok plan) {id : NodeId}
    (hid : code.contains id = true) :
    ∃ address, plan.addresses[id]? = some address ∧
      address.toNat = base.toNat + code.unitsBefore id ∧ address.toNat ≤ JumpAddress.highest := by
  have hcovers := covers_of_planAddresses h
  have hlt : id < plan.addresses.length := by
    rw [hcovers.length_addresses]
    exact of_decide_eq_true hid
  have haddress := List.getElem?_eq_getElem hlt
  exact ⟨plan.addresses[id], haddress, hcovers.toNat_address haddress,
    hcovers.le_highest (List.getElem_mem hlt)⟩

/-- A node of placed code has the address planned for its place. -/
theorem addressOf?_placeAll (layout : Layout) (h : code.planAddresses base = .ok plan) {id : NodeId}
    (hid : code.contains id = true) :
    (code.placeAll layout plan.addresses).addressOf? id = plan.addresses[id]? := by
  obtain ⟨n, hn⟩ := (code.contains_iff_get? id).mp hid
  rw [addressOf?, get?_placeAll layout (covers_of_planAddresses h).length_addresses, hn]
  rfl

/-- Placed code has all its addresses. -/
theorem addressed_placeAll (layout : Layout) (h : code.planAddresses base = .ok plan) :
    (code.placeAll layout plan.addresses).Addressed := by
  intro id hid
  rw [contains_eq_of_outline
    (outline_placeAll layout (covers_of_planAddresses h).length_addresses)] at hid
  obtain ⟨address, haddress, -⟩ := exists_address_of_planAddresses h hid
  exact ⟨address, (addressOf?_placeAll layout h hid).trans haddress⟩

/-- In placed code every destination is one that a jump can carry. -/
theorem destination_le_highest (layout : Layout) (h : code.planAddresses base = .ok plan)
    {site : JumpSite} (hsite : site ∈ (code.placeAll layout plan.addresses).jumpSites) :
    site.destination.toNat ≤ JumpAddress.highest := by
  obtain ⟨target, htarget⟩ := addressOf?_of_mem_jumpSites hsite
  have houtline := outline_placeAll layout (covers_of_planAddresses h).length_addresses
  have hid : code.contains target = true := by
    obtain ⟨n, hn, -⟩ := Option.bind_eq_some_iff.mp htarget
    rw [← contains_eq_of_outline houtline]
    exact (contains_iff_get? _ target).mpr ⟨n, hn⟩
  obtain ⟨address, haddress, -, hle⟩ := exists_address_of_planAddresses h hid
  rw [addressOf?_placeAll layout h hid, haddress] at htarget
  rwa [← Option.some.inj htarget]

/-! ## Relocation -/

/-- **Relocation of placed code succeeds.**  Every node keeps its planned address, and its payload
is what the last jump asks it to carry, else what its variable reports, else its own; the count is
that of the jumps with both links in the code. -/
theorem relocateJumps_placeAll (layout : Layout) (h : code.planAddresses base = .ok plan) :
    ∃ relocated, (code.placeAll layout plan.addresses).relocateJumps =
        (.ok (code.nodes.countP code.relocates), relocated) ∧
      ∀ id, relocated.get? id = (code.get? id).map fun n =>
        { n.overwrite ((code.carried? base id).or (n.reported? layout)) with
          address := plan.addresses[id]? } := by
  have hlength := (covers_of_planAddresses h).length_addresses
  have houtline := outline_placeAll layout hlength
  have haddressed := addressed_placeAll layout h
  obtain ⟨relocated, hrelocated, hget⟩ :=
    relocateJumps_of_le_highest _ fun site hsite => destination_le_highest layout h hsite
  have hcarriers := (map_carrier_jumpSites_of_addressed haddressed).trans
    (carriers_eq_of_outline houtline)
  refine ⟨relocated, ?_, ?_⟩
  · rw [hrelocated, ← length_carriers, ← hcarriers, List.length_map]
  · intro id
    rw [hget, get?_placeAll layout hlength, Option.map_map]
    cases hn : code.get? id with
    | none => rfl
    | some n =>
      have hid := (code.contains_iff_get? id).mpr ⟨n, hn⟩
      have hdestination : ((code.placeAll layout plan.addresses).lastDestination? id).map
          (fun a => Payload.address (JumpAddress.ofNat a.toNat)) = code.carried? base id := by
        rw [lastDestination?_of_addressed haddressed
          (by rw [contains_eq_of_outline houtline]; exact hid),
          lastTarget?_eq_of_outline houtline, carried?]
        cases htarget : code.lastTarget? id with
        | none => rfl
        | some target =>
          -- The target is a node of the code, so its address is the planned one.
          have htargetIn := contains_of_lastTarget? htarget
          obtain ⟨address, haddress, htoNat, -⟩ := exists_address_of_planAddresses h htargetIn
          rw [Option.bind_some, addressOf?_placeAll layout h htargetIn, haddress, Option.map_some,
            Option.map_some, htoNat]
      rw [Option.map_some, Option.map_some, Function.comp, hdestination]
      congr 1
      rw [Node.overwrite, Node.overwrite, Node.overwrite, Option.or_assoc]

end StackLinker.Code
