/-
# What the encoder gets

The encoder gets the nodes that are no markers, in the order of the code.  A node is kept from it if
it has no address, and else if its payload still waits; the first such node is the fault.  So in
addressed code the fault is the first node for the encoder that still waits.
-/
import StackLinker.Code.Emission
import StackLinker.Proofs.Code.Jumps
import StackLinker.Proofs.Pairing
import StackLinker.Proofs.Sequencing

namespace StackLinker

/-- Reporting one fault for each chosen item reports the chosen items, in order. -/
theorem flatMap_guard {α β : Type} (p : α → Bool) (f : α → β) (items : List α) :
    (items.flatMap fun a => if p a then [f a] else []) = (items.filter p).map f := by
  induction items with
  | nil => rfl
  | cons a rest ih =>
    rw [List.flatMap_cons, ih]
    cases hp : p a with
    | true => simp [hp]
    | false => simp [hp]

/-! ## Single nodes -/

namespace Node

/-- Tells whether a node is one for the encoder, that is no marker. -/
def isEncoded (n : Node) : Bool := !n.op.isMarker

/-- Tells whether the payload of a node still waits for its final value. -/
def waits (n : Node) : Bool := n.payload.any fun payload => !payload.isFinal

/-- What keeps a node, at place `id`, from the encoder. -/
def emissionFaults (id : NodeId) (n : Node) : List Fault :=
  match n.address with
  | none => [.notAddressed id]
  | some _ => if n.waits then [.unresolvedPayload id] else []

/-- A node waits exactly if its payload is pending. -/
theorem waits_iff {n : Node} :
    n.waits = true ↔ ∃ relative, n.payload = some (.pending relative) := by
  rw [waits]
  rcases n.payload with _ | (relative | value) <;> simp [Payload.isFinal]

/-- Emitting a node reports what keeps it from the encoder. -/
theorem emit_reports (id : NodeId) (n : Node) : Reports (n.emit id) (n.emissionFaults id) := by
  unfold emit emissionFaults waits
  rcases n.address with _ | address
  · exact rfl
  · rcases n.payload with _ | (relative | value)
    · exact .ok _
    · exact rfl
    · exact .ok _

/-- A node is emitted with its place, its operation, its address and its literal. -/
theorem emit_eq_ok_iff {id : NodeId} {n : Node} {emission : Emission} :
    n.emit id = .ok emission ↔ emission.id = id ∧ emission.op = n.op ∧
      n.address = some emission.address ∧ n.payload = emission.literal.map .literal := by
  obtain ⟨id', address', op', literal'⟩ := emission
  unfold emit
  rcases n.address with _ | address
  · simp
  · rcases n.payload with _ | (relative | value) <;> rcases literal' with _ | value' <;>
      simp <;> tauto

end Node

namespace Code

variable {code : Code}

/-! ## The first fault -/

/-- The nodes for the encoder with their ids, in order. -/
def encoded (code : Code) : List (NodeId × Node) := code.enumerate.filter fun e => e.2.isEncoded

/-- Without their ids these are the nodes that are no markers. -/
theorem map_snd_encoded (code : Code) :
    code.encoded.map Prod.snd = code.nodes.filter Node.isEncoded := by
  have hnodes : code.enumerate.map Prod.snd = code.nodes := by
    rw [enumerate, List.map_map]
    exact List.zipIdx_map_fst 0 code.nodes
  rw [← hnodes, List.filter_map]
  rfl

/-- The nodes for the encoder that still wait, in order. -/
def waiting (code : Code) : List NodeId := (code.encoded.filter fun e => e.2.waits).map Prod.fst

/-- Emitting code reports what keeps its nodes from the encoder. -/
theorem emit_reports (code : Code) :
    Reports code.emit (code.encoded.flatMap fun e => e.2.emissionFaults e.1) :=
  Reports.mapM (fun e : NodeId × Node => e.2.emit_reports e.1) code.encoded

/-- In addressed code only a payload that still waits keeps a node from the encoder. -/
theorem emissionFaults_of_addressed (h : code.Addressed) {e : NodeId × Node}
    (he : e ∈ code.encoded) :
    e.2.emissionFaults e.1 = if e.2.waits then [.unresolvedPayload e.1] else [] := by
  obtain ⟨id, n⟩ := e
  have hn := mem_enumerate_iff.mp (List.mem_filter.mp he).1
  obtain ⟨address, haddress⟩ := h id ((code.contains_iff_get? id).mpr ⟨n, hn⟩)
  rw [addressOf?, hn, Option.bind_some] at haddress
  simp only [Node.emissionFaults, haddress]

/-- Emitting addressed code reports the nodes that still wait. -/
theorem emit_reports_of_addressed (h : code.Addressed) :
    Reports code.emit (code.waiting.map .unresolvedPayload) := by
  have hfaults : (code.encoded.flatMap fun e => e.2.emissionFaults e.1) =
      code.waiting.map .unresolvedPayload := by
    rw [waiting, List.map_map, ← flatMap_guard]
    exact List.flatMap_congr fun e he => emissionFaults_of_addressed h he
  rw [← hfaults]
  exact code.emit_reports

/-- A node is among those that still wait if it is for the encoder and waits. -/
theorem mem_waiting_iff {id : NodeId} :
    id ∈ code.waiting ↔ ∃ n, code.get? id = some n ∧ n.isEncoded = true ∧ n.waits = true := by
  rw [waiting, encoded, List.filter_filter, List.mem_map]
  constructor
  · rintro ⟨⟨id', n⟩, hmem, rfl⟩
    obtain ⟨hn, hwaits⟩ := List.mem_filter.mp hmem
    rw [Bool.and_eq_true] at hwaits
    exact ⟨n, mem_enumerate_iff.mp hn, hwaits.2, hwaits.1⟩
  · rintro ⟨n, hn, hencoded, hwaits⟩
    refine ⟨(id, n), List.mem_filter.mpr ⟨mem_enumerate_iff.mpr hn, ?_⟩, rfl⟩
    rw [Bool.and_eq_true]
    exact ⟨hwaits, hencoded⟩

/-- The first node that still waits is the one before which no other does. -/
theorem head?_waiting_eq_some_iff {id : NodeId} :
    code.waiting.head? = some id ↔
      id ∈ code.waiting ∧ ∀ earlier ∈ code.waiting, id ≤ earlier := by
  have hsorted : code.waiting.Pairwise (· < ·) := by
    rw [waiting, List.pairwise_map]
    exact (code.pairwise_enumerate.filter _).filter _
  cases hwaiting : code.waiting with
  | nil => simp
  | cons first rest =>
    rw [hwaiting, List.pairwise_cons] at hsorted
    rw [List.head?_cons, Option.some_inj]
    constructor
    · rintro rfl
      refine ⟨List.mem_cons_self, ?_⟩
      intro earlier hmem
      rcases List.mem_cons.mp hmem with rfl | hmem
      · exact Nat.le_refl _
      · exact Nat.le_of_lt (hsorted.1 earlier hmem)
    · rintro ⟨hmem, hfirst⟩
      rcases List.mem_cons.mp hmem with rfl | hmem
      · rfl
      · have hlt := hsorted.1 id hmem
        exact absurd hlt (Nat.not_lt_of_le (hfirst first List.mem_cons_self))

/-! ## The emitted list -/

/-- Tells that a list is what the encoder is to get: the nodes that are no markers, each once and in
the order of the code, with their operations, addresses and literals. -/
structure Emits (code : Code) (emissions : List Emission) : Prop where
  ordered : emissions.Pairwise fun e e' => e.id < e'.id
  mem_iff : ∀ emission, emission ∈ emissions ↔ ∃ n, code.get? emission.id = some n ∧
    n.op.isMarker = false ∧ emission.op = n.op ∧ n.address = some emission.address ∧
      n.payload = emission.literal.map .literal

/-- What is emitted stands for the nodes for the encoder one by one. -/
theorem forall₂_of_emit {emissions : List Emission} (h : code.emit = .ok emissions) :
    List.Forall₂ (fun e emission => e.2.emit e.1 = .ok emission) code.encoded emissions :=
  forall₂_of_mapM h

/-- What is emitted has the addresses of the nodes for the encoder. -/
theorem addresses_of_emit {emissions : List Emission} (h : code.emit = .ok emissions) :
    (code.nodes.filter Node.isEncoded).map Node.address =
      emissions.map fun emission => some emission.address := by
  rw [← map_snd_encoded, List.map_map]
  exact map_eq_of_forall₂ (forall₂_of_emit h) fun _ _ hemit => (Node.emit_eq_ok_iff.mp hemit).2.2.1

/-- The list that is emitted is what the encoder is to get. -/
theorem emits_of_emit {emissions : List Emission} (h : code.emit = .ok emissions) :
    code.Emits emissions := by
  have hforall := forall₂_of_emit h
  refine ⟨?_, ?_⟩
  · have hids : code.encoded.map Prod.fst = emissions.map Emission.id :=
      map_eq_of_forall₂ hforall fun _ _ hemit => (Node.emit_eq_ok_iff.mp hemit).1.symm
    rw [← List.pairwise_map, ← hids, List.pairwise_map]
    exact code.pairwise_enumerate.filter _
  · intro emission
    constructor
    · intro hmem
      obtain ⟨place, hplace⟩ := List.getElem?_of_mem hmem
      obtain ⟨⟨id, n⟩, he, hemit⟩ := exists_item hforall hplace
      obtain ⟨hn, hencoded⟩ := List.mem_filter.mp (List.mem_of_getElem? he)
      obtain ⟨rfl, hop, haddress, hpayload⟩ := Node.emit_eq_ok_iff.mp hemit
      exact ⟨n, mem_enumerate_iff.mp hn, by simpa [Node.isEncoded] using hencoded, hop, haddress,
        hpayload⟩
    · rintro ⟨n, hn, hmarker, hop, haddress, hpayload⟩
      have hmem : (emission.id, n) ∈ code.encoded :=
        List.mem_filter.mpr ⟨mem_enumerate_iff.mpr hn, by simp [Node.isEncoded, hmarker]⟩
      obtain ⟨place, hplace⟩ := List.getElem?_of_mem hmem
      obtain ⟨emission', he, hemit⟩ := exists_partner hforall hplace
      -- The node is emitted in one way only.
      have hemission := Node.emit_eq_ok_iff.mpr ⟨rfl, hop, haddress, hpayload⟩
      rw [hemission, Except.ok.injEq] at hemit
      rw [hemit]
      exact List.mem_of_getElem? he

end Code

end StackLinker
