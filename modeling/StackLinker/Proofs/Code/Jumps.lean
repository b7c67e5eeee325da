/-
# Which jump a node carries

A node carries the destination of the last jump that names it as its carrier.  Relocation writes
just that, and where every node has an address it leaves out no jump whose links lie in the code.
-/
import StackLinker.Code.Jumps
import StackLinker.Proofs.Code.Payloads
import StackLinker.Proofs.Places

namespace StackLinker

/-! ## Jumps and their carriers -/

/-- A jump to a target, the address of which a carrier is to carry. -/
structure Node.JumpsTo (n : Node) (target carrier : NodeId) : Prop where
  isJump : n.op.isJump = true
  target : n.target = some target
  carrier : n.carrier = some carrier

namespace Code

/-- The target that a node asks node `id` to carry the address of: a jump asks its carrier, and only
for a target in the code. -/
def targetFor? (code : Code) (id : NodeId) (n : Node) : Option NodeId :=
  if n.op.isJump = true ∧ n.carrier = some id then n.target.filter code.contains else none

/-- The target of the last jump, in the order of the code, that asks node `id`. -/
def lastTarget? (code : Code) (id : NodeId) : Option NodeId :=
  (code.nodes.filterMap (code.targetFor? id)).getLast?

/-- Tells whether a node is a jump with both links in the code. -/
def relocates (code : Code) (n : Node) : Bool :=
  n.op.isJump && n.target.any code.contains && n.carrier.any code.contains

/-- The node that a jump with both links in the code names as its carrier. -/
def carrierOf? (code : Code) (n : Node) : Option NodeId :=
  if code.relocates n then n.carrier else none

/-- The carriers of the jumps with both links in the code, in the order of the jumps. -/
def carriers (code : Code) : List NodeId := code.nodes.filterMap code.carrierOf?

/-- The address of the node at a place, once it has one. -/
def addressOf? (code : Code) (id : NodeId) : Option Address := (code.get? id).bind Node.address

/-- A node asks another exactly if it is a jump that names it, for a target in the code. -/
theorem targetFor?_eq_some_iff {code : Code} {id target : NodeId} {n : Node} :
    code.targetFor? id n = some target ↔
      n.JumpsTo target id ∧ code.contains target = true := by
  rw [targetFor?]
  constructor
  · intro h
    split at h
    · rename_i hjump
      obtain ⟨htarget, hcontains⟩ := Option.filter_eq_some_iff.mp h
      exact ⟨⟨hjump.1, htarget, hjump.2⟩, hcontains⟩
    · cases h
  · rintro ⟨hjump, hcontains⟩
    rw [if_pos ⟨hjump.isJump, hjump.carrier⟩]
    exact Option.filter_eq_some_iff.mpr ⟨hjump.target, hcontains⟩

/-- A jump asks for targets in the code only. -/
theorem contains_of_targetFor? {code : Code} {id target : NodeId} {n : Node}
    (h : code.targetFor? id n = some target) : code.contains target = true :=
  (targetFor?_eq_some_iff.mp h).2

/-- The last jump that asks a node stands at a place after which no other asks it. -/
theorem exists_last_of_lastTarget? {code : Code} {id target : NodeId}
    (h : code.lastTarget? id = some target) : ∃ place n, code.get? place = some n ∧
      code.targetFor? id n = some target ∧
        ∀ later m, place < later → code.get? later = some m → code.targetFor? id m = none :=
  getLast?_filterMap_eq_some_iff.mp h

/-- No jump asks a node exactly if none of the code does. -/
theorem lastTarget?_eq_none_iff {code : Code} {id : NodeId} :
    code.lastTarget? id = none ↔ ∀ n ∈ code.nodes, code.targetFor? id n = none := by
  rw [lastTarget?, List.getLast?_eq_none_iff, List.filterMap_eq_nil_iff]

/-- The last jump asks for a target in the code. -/
theorem contains_of_lastTarget? {code : Code} {id target : NodeId}
    (h : code.lastTarget? id = some target) : code.contains target = true := by
  obtain ⟨-, n, -, htarget, -⟩ := exists_last_of_lastTarget? h
  exact contains_of_targetFor? htarget

/-! ## What relocation reads -/

variable {code code' : Code}

/-- Jumps are part of the outline. -/
theorem lastTarget?_eq_of_outline (h : code.outline = code'.outline) (id : NodeId) :
    code.lastTarget? id = code'.lastTarget? id := by
  have hstep : ∀ c : Code, c.nodes.filterMap (code.targetFor? id) =
      c.outline.filterMap (code.targetFor? id) := by
    intro c
    rw [outline, List.filterMap_map]
    rfl
  have hcontains : code'.targetFor? id = code.targetFor? id := by
    funext n
    rw [targetFor?, targetFor?, contains_eq_of_outline h]
  rw [lastTarget?, lastTarget?, hcontains, hstep code, hstep code', h]

/-- Carriers are part of the outline. -/
theorem carriers_eq_of_outline (h : code.outline = code'.outline) :
    code.carriers = code'.carriers := by
  have hstep : ∀ c : Code,
      c.nodes.filterMap code.carrierOf? = c.outline.filterMap code.carrierOf? := by
    intro c
    rw [outline, List.filterMap_map]
    rfl
  have hcontains : code'.carrierOf? = code.carrierOf? := by
    funext n
    rw [carrierOf?, carrierOf?, relocates, relocates, contains_eq_of_outline h]
  rw [carriers, carriers, hcontains, hstep code, hstep code', h]

/-- A node is the carrier of a jump with both links in the code, and lies in the code itself. -/
theorem carrierOf?_eq_some_iff {n : Node} {carrier : NodeId} :
    code.carrierOf? n = some carrier ↔ ∃ target, n.JumpsTo target carrier ∧
      code.contains target = true ∧ code.contains carrier = true := by
  rw [carrierOf?]
  constructor
  · intro h
    split at h
    · rename_i hrelocates
      simp only [relocates, h, Option.any_some, Bool.and_eq_true, Option.any_eq_true] at hrelocates
      obtain ⟨⟨hjump, target, htarget, htargetIn⟩, hcarrierIn⟩ := hrelocates
      exact ⟨target, ⟨hjump, htarget, h⟩, htargetIn, hcarrierIn⟩
    · cases h
  · rintro ⟨target, hjump, htarget, hcarrier⟩
    rw [if_pos, hjump.carrier]
    simp [relocates, hjump.isJump, hjump.target, hjump.carrier, htarget, hcarrier]

/-- There are as many carriers as there are jumps with both links in the code. -/
theorem length_carriers (code : Code) :
    code.carriers.length = code.nodes.countP code.relocates := by
  rw [carriers, List.length_filterMap_eq_countP]
  apply List.countP_congr
  intro n _
  rw [carrierOf?]
  cases hrelocates : code.relocates n with
  | false => simp
  | true =>
    rw [relocates, Bool.and_eq_true, Option.any_eq_true] at hrelocates
    obtain ⟨-, carrier, hcarrier, -⟩ := hrelocates
    simp [hcarrier]

/-! ## Sites -/

/-- A site stands for a jump with both links in the code, the target of which has an address. -/
theorem jumpSite?_eq_some_iff {n : Node} {site : JumpSite} :
    code.jumpSite? n = some site ↔ n.op.isJump = true ∧ ∃ target, n.target = some target ∧
      n.carrier = some site.carrier ∧ code.addressOf? target = some site.destination ∧
        code.contains site.carrier = true := by
  obtain ⟨place, destination⟩ := site
  rw [jumpSite?]
  by_cases hjump : n.op.isJump = true
  · rw [if_pos hjump]
    simp only [hjump, true_and, Option.bind_eq_bind, Option.bind_eq_some_iff, addressOf?]
    constructor
    · rintro ⟨target, htarget, carrier, hcarrier, node, hnode, address, haddress, h⟩
      split at h
      · cases h
        exact ⟨target, htarget, hcarrier, ⟨node, hnode, haddress⟩, ‹_›⟩
      · cases h
    · rintro ⟨target, htarget, hcarrier, ⟨node, hnode, haddress⟩, hcontains⟩
      exact ⟨target, htarget, place, hcarrier, node, hnode, destination, haddress, if_pos hcontains⟩
  · simp [hjump]

/-- The destination of a site is the address of a node. -/
theorem addressOf?_of_mem_jumpSites {site : JumpSite} (h : site ∈ code.jumpSites) :
    ∃ target, code.addressOf? target = some site.destination := by
  obtain ⟨n, -, hn⟩ := List.mem_filterMap.mp h
  obtain ⟨-, target, -, -, haddress, -⟩ := jumpSite?_eq_some_iff.mp hn
  exact ⟨target, haddress⟩

/-- The destination of the last site that asks node `id`. -/
def lastDestination? (code : Code) (id : NodeId) : Option Address :=
  ((code.jumpSites.filter fun site => site.carrier = id).getLast?).map JumpSite.destination

/-! ## Relocation -/

/-- Destinations that a jump can carry are all encoded. -/
theorem encodeSites_of_le_highest {sites : List JumpSite}
    (h : ∀ site ∈ sites, site.destination.toNat ≤ JumpAddress.highest) :
    encodeSites sites =
      .ok (sites.map fun site => (site.carrier, JumpAddress.ofNat site.destination.toNat)) := by
  induction sites with
  | nil => rfl
  | cons site rest ih =>
    have hsite := h site List.mem_cons_self
    have hrest := ih fun s hs => h s (List.mem_cons_of_mem site hs)
    rw [encodeSites, JumpAddress.encode, if_pos hsite, hrest]
    rfl

/-- Each encoded destination is for the carrier of its site. -/
theorem carriers_of_encodeSites {sites : List JumpSite} {patches : List (NodeId × JumpAddress)}
    (h : encodeSites sites = .ok patches) : patches.map Prod.fst = sites.map JumpSite.carrier := by
  induction sites generalizing patches with
  | nil =>
    cases h
    rfl
  | cons site rest ih =>
    rw [encodeSites] at h
    split at h
    · cases h
    · split at h
      · cases h
      · rename_i hrest
        cases h
        rw [List.map_cons, List.map_cons, ih hrest]

/-- A search from the end finds the value of the last item with a key. -/
theorem lookup_reverse_map {α ν : Type} (key : α → NodeId) (value : α → ν) (items : List α)
    (id : NodeId) :
    (items.map fun x => (key x, value x)).reverse.lookup id =
      ((items.filter fun x => key x = id).getLast?).map value := by
  induction items with
  | nil => rfl
  | cons x rest ih =>
    rw [List.map_cons, List.reverse_cons, List.lookup_append, ih, OrderedMap.lookup_cons_eq_ite,
      List.lookup_nil, List.filter_cons]
    by_cases hx : key x = id
    · rw [if_pos hx.symm, if_pos (decide_eq_true hx), List.getLast?_cons]
      cases (rest.filter fun x => decide (key x = id)).getLast? <;> rfl
    · rw [if_neg fun hid => hx hid.symm, if_neg (by simpa using hx), Option.or_none]

/-- Patches are payload writes. -/
theorem patch_eq_writeAll (code : Code) (patches : List (NodeId × JumpAddress)) :
    code.patch patches = code.writeAll (patches.map fun p => (p.1, .address p.2)) := by
  rw [patch, writeAll, List.foldl_map]

/-- **Relocation writes last destinations.**  Where every destination can be carried, relocation
succeeds and writes to each node the last destination it is asked to carry, and nothing else. -/
theorem relocateJumps_of_le_highest (code : Code)
    (h : ∀ site ∈ code.jumpSites, site.destination.toNat ≤ JumpAddress.highest) :
    ∃ relocated, code.relocateJumps = (.ok code.jumpSites.length, relocated) ∧
      ∀ id, relocated.get? id = (code.get? id).map fun n => n.overwrite
        ((code.lastDestination? id).map fun a => .address (JumpAddress.ofNat a.toNat)) := by
  have hencoded := encodeSites_of_le_highest h
  refine ⟨code.patch (code.jumpSites.map fun site =>
    (site.carrier, JumpAddress.ofNat site.destination.toNat)), ?_, ?_⟩
  · rw [relocateJumps, hencoded, ← List.length_map]
  · intro id
    rw [patch_eq_writeAll, get?_writeAll, List.map_map, lastDestination?, Option.map_map]
    congr 1
    funext n
    congr 1
    exact lookup_reverse_map JumpSite.carrier _ code.jumpSites id

/-! ## Code with all its addresses -/

/-- Every node has an address. -/
def Addressed (code : Code) : Prop :=
  ∀ id, code.contains id = true → ∃ a, code.addressOf? id = some a

/-- In addressed code the sites for a node are the jumps that ask it. -/
theorem filter_jumpSite?_of_addressed (haddressed : code.Addressed) {id : NodeId}
    (hid : code.contains id = true) (n : Node) :
    ((code.jumpSite? n).filter fun site => site.carrier = id).map
        (fun site => some site.destination) =
      (code.targetFor? id n).map code.addressOf? := by
  cases htarget : n.target with
  | none => simp [jumpSite?, targetFor?, htarget]
  | some target =>
    cases hnode : code.get? target with
    | none =>
      have hcontains := contains_eq_false_iff_get?.mpr hnode
      simp [jumpSite?, targetFor?, htarget, hnode, hcontains, Option.filter_some]
    | some node =>
      -- The target has an address, so the carrier alone decides whether there is a site.
      have hcontains := (code.contains_iff_get? target).mpr ⟨node, hnode⟩
      obtain ⟨a, ha⟩ := haddressed target hcontains
      have hnodeAddress : node.address = some a := by rwa [addressOf?, hnode] at ha
      cases hcarrier : n.carrier with
      | none => simp [jumpSite?, targetFor?, htarget, hcarrier]
      | some carrier =>
        by_cases hjump : n.op.isJump = true
        · by_cases hid' : carrier = id
          · simp [jumpSite?, targetFor?, htarget, hnode, hcarrier, hjump, hid', hid, hcontains, ha,
              hnodeAddress, Option.filter_some]
          · simp [jumpSite?, targetFor?, htarget, hnode, hcarrier, hjump, hid', hnodeAddress]
        · simp [jumpSite?, targetFor?, hjump]

/-- In addressed code a node is asked to carry the address of its last target. -/
theorem lastDestination?_of_addressed (haddressed : code.Addressed) {id : NodeId}
    (hid : code.contains id = true) :
    code.lastDestination? id = (code.lastTarget? id).bind code.addressOf? := by
  have hlists : (code.jumpSites.filter fun site => site.carrier = id).map
      (fun site => some site.destination) =
        (code.nodes.filterMap (code.targetFor? id)).map code.addressOf? := by
    rw [jumpSites, List.filter_filterMap, List.map_filterMap, List.map_filterMap]
    apply List.filterMap_congr
    intro n _
    exact filter_jumpSite?_of_addressed haddressed hid n
  -- Equal lists have equal last items; the rest only moves the map inside.
  have hlast := congrArg List.getLast? hlists
  rw [List.getLast?_map, List.getLast?_map] at hlast
  rw [lastDestination?, lastTarget?]
  calc ((code.jumpSites.filter fun site => site.carrier = id).getLast?).map JumpSite.destination
      = (((code.jumpSites.filter fun site => site.carrier = id).getLast?).map
          fun site => some site.destination).join := by
        cases (code.jumpSites.filter fun site => site.carrier = id).getLast? <;> rfl
    _ = (((code.nodes.filterMap (code.targetFor? id)).getLast?).map code.addressOf?).join := by
        rw [hlast]
    _ = ((code.nodes.filterMap (code.targetFor? id)).getLast?).bind code.addressOf? := by
        cases (code.nodes.filterMap (code.targetFor? id)).getLast? <;> rfl

/-- In addressed code there is a site for each jump with both links in the code. -/
theorem map_carrier_jumpSites_of_addressed (haddressed : code.Addressed) :
    code.jumpSites.map JumpSite.carrier = code.carriers := by
  rw [jumpSites, carriers, List.map_filterMap]
  apply List.filterMap_congr
  intro n _
  ext carrier
  rw [Option.map_eq_some_iff, carrierOf?_eq_some_iff]
  constructor
  · rintro ⟨site, hsite, rfl⟩
    obtain ⟨hjump, target, htarget, hcarrier, haddress, hcontains⟩ := jumpSite?_eq_some_iff.mp hsite
    obtain ⟨node, hnode, -⟩ := Option.bind_eq_some_iff.mp haddress
    exact ⟨target, ⟨hjump, htarget, hcarrier⟩, (code.contains_iff_get? target).mpr ⟨node, hnode⟩,
      hcontains⟩
  · rintro ⟨target, hjump, htarget, hcarrier⟩
    obtain ⟨address, haddress⟩ := haddressed target htarget
    exact ⟨⟨carrier, address⟩, jumpSite?_eq_some_iff.mpr
      ⟨hjump.isJump, target, hjump.target, hjump.carrier, haddress, hcarrier⟩, rfl⟩

end Code

end StackLinker
