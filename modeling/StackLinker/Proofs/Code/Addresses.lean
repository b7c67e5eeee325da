/-
# Addresses as sums of extents

An address plan puts each node at the base and the extents of the nodes before it, and stops at the
base and all extents.  It reads nothing of the code but its outline, so a plan made before payloads
are written is the plan made after.
-/
import StackLinker.Code.Addresses
import StackLinker.Proofs.Code.Payloads
import StackLinker.Proofs.Sequencing

namespace StackLinker

/-! ## Extents -/

/-- A push has a width. -/
def Node.Sized (n : Node) : Prop := n.op = .push → n.width ≠ 0

/-- The number of address units that nodes take together. -/
def span : List Node → Nat
  | [] => 0
  | n :: rest => n.extent.toNat + span rest

/-- The number of address units that the nodes before a place take. -/
def Code.unitsBefore (code : Code) (id : NodeId) : Nat := span (code.nodes.take id)

@[simp] theorem span_nil : span [] = 0 := rfl

@[simp] theorem span_cons (n : Node) (rest : List Node) :
    span (n :: rest) = n.extent.toNat + span rest := rfl

/-- Lists of nodes one after the other take the units of both. -/
theorem span_append (nodes later : List Node) :
    span (nodes ++ later) = span nodes + span later := by
  induction nodes with
  | nil => exact (Nat.zero_add _).symm
  | cons n rest ih => rw [List.cons_append, span_cons, span_cons, ih, Nat.add_assoc]

/-- A later place has no fewer units before it. -/
theorem Code.unitsBefore_mono (code : Code) {id later : NodeId} (h : id ≤ later) :
    code.unitsBefore id ≤ code.unitsBefore later := by
  have hsplit := List.take_append_drop id (code.nodes.take later)
  rw [List.take_take, Nat.min_eq_left h] at hsplit
  rw [unitsBefore, unitsBefore, ← hsplit, span_append]
  exact Nat.le_add_right _ _

/-- Extents are part of the outline. -/
theorem span_map_outline (nodes : List Node) : span (nodes.map Node.outline) = span nodes := by
  induction nodes with
  | nil => rfl
  | cons n rest ih =>
    rw [List.map_cons, span_cons, span_cons, ih]
    rfl

namespace Node

variable {n : Node}

/-- The units of a node are its extent, if it has its width. -/
theorem units_eq_ok_iff {id : NodeId} {units : Address} :
    n.units id = .ok units ↔ n.Sized ∧ n.extent = units := by
  rw [Node.units, Sized]
  by_cases h : n.op = .push ∧ n.width = 0
  · simp [h]
  · rw [if_neg h, Except.ok.injEq]
    refine (and_iff_right ?_).symm
    intro hop hwidth
    exact h ⟨hop, hwidth⟩

/-- No node takes 2 ^ 32 units or more. -/
theorem extent_lt (n : Node) : n.extent.toNat < 0x100000000 := by
  unfold extent
  split
  · decide
  · split
    · rw [UInt32.toNat_toUInt64]
      exact n.width.toNat_lt
    · decide

/-- An address within reach and the units of a node have a sum. -/
theorem exists_add?_units {id : NodeId} {address units : Address}
    (hle : address.toNat ≤ JumpAddress.highest) (hunits : n.units id = .ok units) :
    ∃ next, address.add? units = some next := by
  obtain ⟨-, rfl⟩ := units_eq_ok_iff.mp hunits
  have hextent := n.extent_lt
  rw [JumpAddress.highest] at hle
  exact ⟨_, if_pos (by rw [UInt64.size]; omega)⟩

/-- The units of a push without a width are a fault. -/
theorem units_of_not_sized (id : NodeId) (h : ¬ n.Sized) :
    n.units id = .error (.zeroWidth id) := by
  obtain ⟨hop, hwidth⟩ := Classical.not_imp.mp h
  rw [units, if_pos ⟨hop, Decidable.not_not.mp hwidth⟩]

/-- A marker takes no units. -/
theorem extent_of_isMarker (h : n.op.isMarker = true) : n.extent.toNat = 0 := by
  unfold extent
  rw [if_pos h]
  rfl

/-- Every other node that has its width takes units. -/
theorem extent_pos (h : n.op.isMarker = false) (hsized : n.Sized) : 0 < n.extent.toNat := by
  unfold extent
  rw [if_neg (by simp [h])]
  split
  · rename_i hop
    have hwidth : n.width.toNat ≠ 0 := fun hzero => hsized hop (UInt32.toNat_inj.mp hzero)
    rw [UInt32.toNat_toUInt64]
    omega
  · decide

end Node

/-! ## What a plan says -/

/-- A plan that puts nodes one after the other from a start, each where a jump can reach it. -/
structure AddressPlan.Covers (plan : AddressPlan) (start : Nat) (nodes : List Node) : Prop where
  /-- Every node has an address. -/
  length_addresses : plan.addresses.length = nodes.length
  /-- The address of a node is the start and the extents before the node. -/
  toNat_address : ∀ {id : NodeId} {address : Address}, plan.addresses[id]? = some address →
    address.toNat = start + span (nodes.take id)
  /-- The plan stops after the last extent. -/
  toNat_stop : plan.stop.toNat = start + span nodes
  /-- Every address is one that a jump can carry. -/
  le_highest : ∀ {address : Address}, address ∈ plan.addresses →
    address.toNat ≤ JumpAddress.highest

namespace Code

/-- **A step.**  A node within reach that has its width takes the address, and the others are
planned from where it ends. -/
theorem exists_planFrom_cons {address : Address} {n : Node}
    (hle : address.toNat ≤ JumpAddress.highest)
    (hsized : n.Sized) : ∃ next : Address, next.toNat = address.toNat + n.extent.toNat ∧
      ∀ id rest, planFrom id address (n :: rest) =
        (planFrom (id + 1) next rest).map fun tail => ⟨address :: tail.addresses, tail.stop⟩ := by
  have hunits : ∀ id, n.units id = .ok n.extent := fun id => Node.units_eq_ok_iff.mpr ⟨hsized, rfl⟩
  obtain ⟨next, hnext⟩ := Node.exists_add?_units hle (hunits 0)
  refine ⟨next, Address.add?_eq_some_iff.mp hnext, ?_⟩
  intro id rest
  rw [planFrom, if_neg (Nat.not_lt_of_le hle), hunits]
  simp only [hnext]
  cases planFrom (id + 1) next rest <;> rfl

/-- There is a plan for a first node and the others exactly if the first can be reached and has its
width, and there is a plan for the others from where it ends. -/
theorem planFrom_cons_eq_ok_iff {id : NodeId} {address : Address} {n : Node} {rest : List Node}
    {plan : AddressPlan} :
    planFrom id address (n :: rest) = .ok plan ↔
      address.toNat ≤ JumpAddress.highest ∧ n.Sized ∧ ∃ next tail,
        next.toNat = address.toNat + n.extent.toNat ∧ planFrom (id + 1) next rest = .ok tail ∧
          plan = ⟨address :: tail.addresses, tail.stop⟩ := by
  by_cases hle : address.toNat ≤ JumpAddress.highest
  · by_cases hsized : n.Sized
    · obtain ⟨next, hnext, hplan⟩ := exists_planFrom_cons hle hsized
      rw [hplan, map_eq_ok_iff]
      constructor
      · rintro ⟨tail, htail, rfl⟩
        exact ⟨hle, hsized, next, tail, hnext, htail, rfl⟩
      · rintro ⟨-, -, next', tail, hnext', htail, rfl⟩
        obtain rfl : next' = next := UInt64.toNat_inj.mp (hnext'.trans hnext.symm)
        exact ⟨tail, htail, rfl⟩
    · rw [planFrom, if_neg (Nat.not_lt_of_le hle), Node.units_of_not_sized id hsized]
      simp [hsized]
  · rw [planFrom, if_pos (Nat.lt_of_not_le hle)]
    simp [hle]

/-- A plan from an address covers its nodes from there. -/
theorem covers_of_planFrom {id : NodeId} {address : Address} {nodes : List Node}
    {plan : AddressPlan} (h : planFrom id address nodes = .ok plan) :
    plan.Covers address.toNat nodes := by
  induction nodes generalizing id address plan with
  | nil =>
    cases h
    exact ⟨rfl, by simp, rfl, by simp⟩
  | cons n rest ih =>
    obtain ⟨hle, -, next, tail, hnext, htail, rfl⟩ := planFrom_cons_eq_ok_iff.mp h
    have hrest := ih htail
    refine ⟨?_, ?_, ?_, ?_⟩
    · rw [List.length_cons, List.length_cons, hrest.length_addresses]
    · intro place a ha
      cases place with
      | zero =>
        rw [List.getElem?_cons_zero, Option.some_inj] at ha
        rw [← ha, List.take_zero, span_nil, Nat.add_zero]
      | succ place =>
        -- The rest starts after the first extent, which moves from the start into the sum.
        rw [List.getElem?_cons_succ] at ha
        rw [hrest.toNat_address ha, List.take_succ_cons, span_cons, hnext, Nat.add_assoc]
    · rw [hrest.toNat_stop, span_cons, hnext, Nat.add_assoc]
    · intro a ha
      rcases List.mem_cons.mp ha with rfl | ha
      · exact hle
      · exact hrest.le_highest ha

/-- A plan of the code covers its nodes from the base. -/
theorem covers_of_planAddresses {code : Code} {base : Address} {plan : AddressPlan}
    (h : code.planAddresses base = .ok plan) : plan.Covers base.toNat code.nodes :=
  covers_of_planFrom h

/-- **When there is a plan.**  There is a plan exactly if every push has its width and a jump can
reach every node.  No sum overflows, since a sum of an address within reach and an extent is
small. -/
theorem exists_planFrom_iff {id : NodeId} {address : Address} {nodes : List Node} :
    (∃ plan, planFrom id address nodes = .ok plan) ↔
      (∀ n ∈ nodes, n.Sized) ∧ ∀ place < nodes.length,
        address.toNat + span (nodes.take place) ≤ JumpAddress.highest := by
  induction nodes generalizing id address with
  | nil => simp [planFrom]
  | cons n rest ih =>
    simp only [planFrom_cons_eq_ok_iff]
    constructor
    · rintro ⟨-, hle, hsized, next, tail, hnext, htail, -⟩
      obtain ⟨hsizes, hreach⟩ := ih.mp ⟨tail, htail⟩
      refine ⟨?_, ?_⟩
      · intro m hm
        rcases List.mem_cons.mp hm with rfl | hm
        · exact hsized
        · exact hsizes m hm
      · intro place hplace
        cases place with
        | zero => exact hle
        | succ place =>
          have hrest := hreach place (by simpa using hplace)
          rw [List.take_succ_cons, span_cons]
          omega
    · rintro ⟨hsizes, hreach⟩
      have hle : address.toNat ≤ JumpAddress.highest := hreach 0 (by simp)
      have hsized := hsizes n List.mem_cons_self
      obtain ⟨next, hnext, -⟩ := exists_planFrom_cons hle hsized
      obtain ⟨tail, htail⟩ := (@ih (id + 1) next).mpr <| by
        refine ⟨fun m hm => hsizes m (List.mem_cons_of_mem n hm), ?_⟩
        intro place hplace
        have hrest := hreach (place + 1) (by simpa using hplace)
        rw [List.take_succ_cons, span_cons] at hrest
        omega
      exact ⟨_, hle, hsized, next, tail, hnext, htail, rfl⟩

/-! ## When there is no plan -/

/-- **The first fault.**  Planning fails at the first node that is out of reach or has no width. -/
theorem planFrom_eq_error (id : NodeId) {nodes : List Node} {place : NodeId} {address : Address}
    {n : Node} (hn : nodes[place]? = some n)
    (hearlier : ∀ earlier m, earlier < place → nodes[earlier]? = some m →
      address.toNat + span (nodes.take earlier) ≤ JumpAddress.highest ∧ m.Sized)
    (hfault : JumpAddress.highest < address.toNat + span (nodes.take place) ∨ ¬ n.Sized) :
    ∃ reached : Address, reached.toNat = address.toNat + span (nodes.take place) ∧
      planFrom id address nodes = .error
        (if JumpAddress.highest < reached.toNat then .addressOverflow reached
        else .zeroWidth (id + place)) := by
  induction place generalizing nodes id address with
  | zero =>
    obtain ⟨rest, rfl⟩ : ∃ rest, nodes = n :: rest := by
      cases nodes with
      | nil => cases hn
      | cons m rest => exact ⟨rest, congrArg (· :: rest) (Option.some.inj hn)⟩
    refine ⟨address, rfl, ?_⟩
    rw [planFrom]
    by_cases hhigh : JumpAddress.highest < address.toNat
    · rw [if_pos hhigh, if_pos hhigh]
    · rw [if_neg hhigh, if_neg hhigh, Node.units_of_not_sized id (hfault.resolve_left hhigh)]
      rfl
  | succ place ih =>
    cases nodes with
    | nil => cases hn
    | cons m rest =>
      obtain ⟨hle, hsized⟩ := hearlier 0 m (Nat.succ_pos place) rfl
      obtain ⟨next, hnext, hplan⟩ := exists_planFrom_cons hle hsized
      -- The rest starts where the first node ends, so its sums begin with the first extent.
      have hsum : ∀ later, address.toNat + span ((m :: rest).take (later + 1)) =
          next.toNat + span (rest.take later) := by
        intro later
        rw [List.take_succ_cons, span_cons, hnext, Nat.add_assoc]
      rw [hsum] at hfault ⊢
      obtain ⟨reached, hreached, herror⟩ := ih (id + 1) hn (fun earlier m' hlt hm' => by
        rw [← hsum]
        exact hearlier (earlier + 1) m' (Nat.succ_lt_succ hlt) hm') hfault
      refine ⟨reached, hreached, ?_⟩
      rw [hplan, herror, Nat.add_right_comm, Nat.add_assoc]
      rfl

/-! ## What a plan reads -/

/-- A plan reads the outlines of its nodes. -/
theorem planFrom_map_outline (id : NodeId) (address : Address) (nodes : List Node) :
    planFrom id address (nodes.map Node.outline) = planFrom id address nodes := by
  induction nodes generalizing id address with
  | nil => rfl
  | cons n rest ih =>
    have hunits : n.outline.units id = n.units id := rfl
    rw [List.map_cons, planFrom, planFrom, hunits]
    simp only [ih]

/-- Code of one outline takes as many units. -/
theorem span_nodes_eq_of_outline {code code' : Code} (h : code.outline = code'.outline) :
    span code.nodes = span code'.nodes := by
  rw [← span_map_outline, ← span_map_outline code'.nodes]
  exact congrArg span h

/-- Code of one outline has one plan. -/
theorem planAddresses_eq_of_outline {code code' : Code} (h : code.outline = code'.outline)
    (base : Address) : code.planAddresses base = code'.planAddresses base := by
  rw [planAddresses, planAddresses, ← planFrom_map_outline,
    ← planFrom_map_outline 0 base code'.nodes]
  exact congrArg (planFrom 0 base) h

end Code

/-! ## Writing a plan -/

/-- The payload that a node takes from the variable it refers to. -/
def Node.reported? (layout : Layout) (n : Node) : Option Payload :=
  (n.referenced?.bind layout.position?).map Payload.number

/-- A placed node has the address, and the payload that its variable reports. -/
theorem Node.place_eq (layout : Layout) (n : Node) (address : Address) :
    n.place layout address = { n.overwrite (n.reported? layout) with address := some address } := by
  rw [place, reported?]
  cases n.referenced?.bind layout.position? <;> rfl

namespace Code

/-- The code with its nodes placed at the addresses in order. -/
def placeAll (code : Code) (layout : Layout) (addresses : List Address) : Code :=
  ⟨code.nodes.zipWith (Node.place layout) addresses⟩

/-- Assigning addresses is planning them and placing the nodes. -/
theorem assignAddresses_of_planAddresses {code : Code} {base : Address} {plan : AddressPlan}
    (layout : Layout) (h : code.planAddresses base = .ok plan) :
    code.assignAddresses layout base = (.ok plan.stop, code.placeAll layout plan.addresses) := by
  rw [assignAddresses, h]
  rfl

/-- With an address for every node, placing keeps all nodes and only gives them their address and
what their variables report. -/
theorem get?_placeAll {code : Code} (layout : Layout) {addresses : List Address}
    (h : addresses.length = code.size) (id : NodeId) :
    (code.placeAll layout addresses).get? id =
      (code.get? id).map fun n =>
        { n.overwrite (n.reported? layout) with address := addresses[id]? } := by
  rw [get?, get?, placeAll, List.getElem?_zipWith']
  cases hn : code.nodes[id]? with
  | none => rfl
  | some n =>
    have hid : id < addresses.length := by
      rw [h]
      exact (List.getElem?_eq_some_iff.mp hn).1
    rw [List.getElem?_eq_getElem hid, Option.map_some, Option.map_some, Option.bind_some,
      Option.map_some, Node.place_eq]

/-- With an address for every node, placing keeps the outline. -/
theorem outline_placeAll {code : Code} (layout : Layout) {addresses : List Address}
    (h : addresses.length = code.size) :
    (code.placeAll layout addresses).outline = code.outline :=
  outline_eq_of_skeleton (skeleton_eq_of_get? (get?_placeAll layout h) fun _ _ => rfl)

end Code

end StackLinker
