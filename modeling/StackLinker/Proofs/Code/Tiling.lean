/-
# Nodes one after the other

Nodes are consecutive if each has the address at which the one before it ends.  Then the ranges of
those that take address units follow each other without gap or overlap, a marker has the address of
the node after it, and no address of a node lies inside a range.
-/
import StackLinker.Proofs.Code.Emission
import StackLinker.Proofs.Code.Relocation

namespace StackLinker

/-! ## Ranges -/

/-- The addresses that a node takes, from its own up to the one after its last unit. -/
def Node.range? (n : Node) : Option (Nat × Nat) :=
  n.address.map fun address => (address.toNat, address.toNat + n.extent.toNat)

/-- Half-open ranges that follow each other from a start to a stop without gap or overlap, and none
of which is empty.  With no range the stop is the start. -/
inductive Tiles : Nat → List (Nat × Nat) → Nat → Prop
  | nil (stop : Nat) : Tiles stop [] stop
  | cons {start next stop : Nat} {rest : List (Nat × Nat)} (hlt : start < next)
    (hrest : Tiles next rest stop) : Tiles start ((start, next) :: rest) stop

namespace Tiles

variable {start stop : Nat} {ranges : List (Nat × Nat)}

/-- Ranges lead forward. -/
theorem start_le_stop (h : Tiles start ranges stop) : start ≤ stop := by
  induction h with
  | nil => exact Nat.le_refl _
  | cons hlt _ ih => omega

/-- No range begins before the start. -/
theorem start_le_of_mem (h : Tiles start ranges stop) {r : Nat × Nat} (hr : r ∈ ranges) :
    start ≤ r.1 := by
  induction h with
  | nil => cases hr
  | cons hlt _ ih =>
    rcases List.mem_cons.mp hr with rfl | hr
    · exact Nat.le_refl _
    · have := ih hr
      omega

/-- Ranges begin one after the other. -/
theorem pairwise_starts (h : Tiles start ranges stop) :
    ranges.Pairwise fun r r' => r.1 < r'.1 := by
  induction h with
  | nil => exact .nil
  | cons hlt hrest ih =>
    refine List.pairwise_cons.mpr ⟨?_, ih⟩
    intro r hr
    have := hrest.start_le_of_mem hr
    omega

/-- The places where ranges begin, and the stop, lie inside no range. -/
theorem not_inside (h : Tiles start ranges stop) {x : Nat}
    (hx : x = stop ∨ ∃ r ∈ ranges, r.1 = x) {r : Nat × Nat} (hr : r ∈ ranges) :
    ¬ (r.1 < x ∧ x < r.2) := by
  induction h with
  | nil => cases hr
  | @cons start next stop rest hlt hrest ih =>
    -- All that lies after the first range lies at its end or later.
    have hlater : x = start ∨ x = stop ∨ ∃ r ∈ rest, r.1 = x := by
      rcases hx with hstop | ⟨r, hr, hx⟩
      · exact .inr (.inl hstop)
      · rcases List.mem_cons.mp hr with rfl | hr
        · exact .inl hx.symm
        · exact .inr (.inr ⟨r, hr, hx⟩)
    rcases List.mem_cons.mp hr with rfl | hmem
    · have hnext : x = start ∨ next ≤ x := by
        rcases hlater with hstart | hstop | ⟨r, hr, rfl⟩
        · exact .inl hstart
        · exact .inr (hstop ▸ hrest.start_le_stop)
        · exact .inr (hrest.start_le_of_mem hr)
      simp only
      omega
    · rcases hlater with rfl | hlater
      · have := hrest.start_le_of_mem hmem
        omega
      · exact ih hlater hmem

end Tiles

/-- Tells that an address is one where a node for the encoder begins, or the stop. -/
def Code.IsBoundary (code : Code) (stop address : Address) : Prop :=
  address = stop ∨ ∃ n ∈ code.nodes, n.isEncoded = true ∧ n.address = some address

/-! ## Consecutive nodes -/

/-- Nodes from a start to a stop, each with the address at which the one before it ends. -/
inductive Consecutive : Nat → List Node → Nat → Prop
  | nil (stop : Nat) : Consecutive stop [] stop
  | cons {n : Node} {address : Address} {rest : List Node} {start stop : Nat}
    (haddress : n.address = some address) (hstart : address.toNat = start)
    (hrest : Consecutive (start + n.extent.toNat) rest stop) : Consecutive start (n :: rest) stop

namespace Consecutive

variable {nodes : List Node} {start stop : Nat}

/-- Nodes that have the sums of the extents before them as their addresses are consecutive. -/
theorem of_addresses (h : ∀ id n, nodes[id]? = some n → ∃ address : Address,
      n.address = some address ∧ address.toNat = start + span (nodes.take id)) :
    Consecutive start nodes (start + span nodes) := by
  induction nodes generalizing start with
  | nil => exact .nil start
  | cons n rest ih =>
    obtain ⟨address, haddress, hstart⟩ := h 0 n rfl
    have hrest :
        Consecutive (start + n.extent.toNat) rest (start + n.extent.toNat + span rest) := by
      apply ih
      intro id m hm
      obtain ⟨address', haddress', hsum⟩ := h (id + 1) m hm
      refine ⟨address', haddress', ?_⟩
      rw [hsum, List.take_succ_cons, span_cons, Nat.add_assoc]
    rw [Nat.add_assoc] at hrest
    exact .cons haddress hstart hrest

/-- **Ranges of consecutive nodes.**  The nodes for the encoder have ranges that tile what lies
between the start and the stop. -/
theorem exists_tiles (h : Consecutive start nodes stop) (hsized : ∀ n ∈ nodes, n.Sized) :
    ∃ ranges, (nodes.filter Node.isEncoded).map Node.range? = ranges.map some ∧
      Tiles start ranges stop := by
  induction h with
  | nil stop => exact ⟨[], rfl, .nil stop⟩
  | @cons n address rest start stop haddress hstart _ ih =>
    obtain ⟨ranges, hranges, htiles⟩ := ih fun m hm => hsized m (List.mem_cons_of_mem n hm)
    cases hmarker : n.op.isMarker with
    | true =>
      rw [Node.extent_of_isMarker hmarker, Nat.add_zero] at htiles
      rw [List.filter_cons_of_neg (by simp [Node.isEncoded, hmarker])]
      exact ⟨ranges, hranges, htiles⟩
    | false =>
      have hpos := Node.extent_pos hmarker (hsized n List.mem_cons_self)
      refine ⟨(start, start + n.extent.toNat) :: ranges, ?_, .cons (by omega) htiles⟩
      rw [List.filter_cons_of_pos (by simp [Node.isEncoded, hmarker]), List.map_cons, hranges,
        Node.range?, haddress, Option.map_some, hstart, List.map_cons]

/-- Where nodes begin, the first of them for the encoder begins; without such a node they stop
there. -/
theorem address_find? (h : Consecutive start nodes stop) :
    ((nodes.find? Node.isEncoded = none ∧ start = stop) ∨
      ∃ n address, nodes.find? Node.isEncoded = some n ∧ n.address = some address ∧
        address.toNat = start) := by
  induction h with
  | nil => exact .inl ⟨rfl, rfl⟩
  | @cons n address rest start stop haddress hstart _ ih =>
    cases hmarker : n.op.isMarker with
    | true =>
      rw [Node.extent_of_isMarker hmarker, Nat.add_zero] at ih
      rw [List.find?_cons_of_neg (by simp [Node.isEncoded, hmarker])]
      exact ih
    | false =>
      rw [List.find?_cons_of_pos (by simp [Node.isEncoded, hmarker])]
      exact .inr ⟨n, address, rfl, haddress, hstart⟩

/-- The nodes from one on are consecutive from its address. -/
theorem exists_drop (h : Consecutive start nodes stop) {id : NodeId} {n : Node}
    (hn : nodes[id]? = some n) : ∃ address, n.address = some address ∧
      Consecutive address.toNat (nodes.drop id) stop ∧
        Consecutive (address.toNat + n.extent.toNat) (nodes.drop (id + 1)) stop := by
  induction h generalizing id with
  | nil => simp at hn
  | @cons m address rest start stop haddress hstart hrest ih =>
    cases id with
    | zero =>
      rw [List.getElem?_cons_zero, Option.some_inj] at hn
      subst hn
      subst hstart
      exact ⟨address, haddress, .cons haddress rfl hrest, hrest⟩
    | succ id =>
      rw [List.getElem?_cons_succ] at hn
      exact ih hn

/-- A marker has the address of the next node for the encoder, or the stop if there is none. -/
theorem address_of_isMarker {stop : Address} (h : Consecutive start nodes stop.toNat) {id : NodeId}
    {n : Node} (hn : nodes[id]? = some n) (hmarker : n.op.isMarker = true) :
    n.address = match (nodes.drop (id + 1)).find? Node.isEncoded with
      | some next => next.address
      | none => some stop := by
  obtain ⟨address, haddress, -, hrest⟩ := h.exists_drop hn
  rw [Node.extent_of_isMarker hmarker, Nat.add_zero] at hrest
  rcases hrest.address_find? with ⟨hnone, hstop⟩ | ⟨next, address', hnext, haddress', heq⟩
  · rw [hnone, haddress, UInt64.toNat_inj.mp hstop]
  · rw [hnext, haddress]
    exact (haddress'.trans (congrArg some (UInt64.toNat_inj.mp heq))).symm

/-- The address of any node is that of a node for the encoder, or the stop. -/
theorem isBoundary {code : Code} {stop address : Address}
    (h : Consecutive start code.nodes stop.toNat) {id : NodeId}
    (haddress : code.addressOf? id = some address) : code.IsBoundary stop address := by
  obtain ⟨n, hn, haddress⟩ := Option.bind_eq_some_iff.mp haddress
  obtain ⟨address', haddress', hrest, -⟩ := h.exists_drop hn
  obtain rfl : address = address' := by
    rw [haddress] at haddress'
    exact Option.some.inj haddress'
  rcases hrest.address_find? with ⟨-, hstop⟩ | ⟨m, address', hm, haddress', heq⟩
  · exact .inl (UInt64.toNat_inj.mp hstop)
  · refine .inr ⟨m, List.mem_of_mem_drop (List.mem_of_find?_eq_some hm), List.find?_some hm, ?_⟩
    rw [haddress', UInt64.toNat_inj.mp heq]

end Consecutive

/-! ## Boundaries and tiles -/

namespace Code

variable {code : Code} {ranges : List (Nat × Nat)}

/-- No boundary lies inside a range. -/
theorem IsBoundary.not_inside {start : Nat} {stop address : Address}
    (h : code.IsBoundary stop address)
    (hranges : (code.nodes.filter Node.isEncoded).map Node.range? = ranges.map some)
    (htiles : Tiles start ranges stop.toNat) {r : Nat × Nat} (hr : r ∈ ranges) :
    ¬ (r.1 < address.toNat ∧ address.toNat < r.2) := by
  apply htiles.not_inside _ hr
  rcases h with rfl | ⟨n, hn, hencoded, haddress⟩
  · exact .inl rfl
  · have hmem : n.range? ∈ ranges.map some :=
      hranges ▸ List.mem_map_of_mem (List.mem_filter.mpr ⟨hn, hencoded⟩)
    obtain ⟨r', hr', hrange⟩ := List.mem_map.mp hmem
    rw [Node.range?, haddress, Option.map_some, Option.some_inj] at hrange
    exact .inr ⟨r', hr', congrArg Prod.fst hrange⟩

/-- What is emitted begins where the ranges begin. -/
theorem starts_of_emit {emissions : List Emission}
    (hranges : (code.nodes.filter Node.isEncoded).map Node.range? = ranges.map some)
    (h : code.emit = .ok emissions) :
    emissions.map (fun emission => emission.address.toNat) = ranges.map Prod.fst := by
  have hnodes := congrArg (List.map (Option.map UInt64.toNat)) (addresses_of_emit h)
  have hstarts := congrArg (List.map (Option.map Prod.fst)) hranges
  have hfirst : Option.map Prod.fst ∘ Node.range? = Option.map UInt64.toNat ∘ Node.address := by
    funext n
    rw [Function.comp, Function.comp, Node.range?, Option.map_map]
    rfl
  rw [List.map_map, List.map_map] at hnodes hstarts
  rw [hfirst, hnodes] at hstarts
  have hsome : (emissions.map fun emission => emission.address.toNat).map some =
      (ranges.map Prod.fst).map some := by
    rw [List.map_map, List.map_map]
    exact hstarts
  exact (List.map_inj_right fun _ _ => Option.some.inj).mp hsome

end Code

end StackLinker
