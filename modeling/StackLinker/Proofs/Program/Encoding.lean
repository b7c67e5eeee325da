/-
# What a pass leaves for the encoder

The nodes for the encoder take ranges of addresses that tile what lies between the base and the
stop.  A jump is sent to where one of them begins, or to the stop, and never into the middle of a
push.  The encoder refuses a node exactly if its payload was pending before the pass and nothing has
asked for it: neither the storage plan, nor a reference to a declared variable, nor a jump.
-/
import StackLinker.Proofs.Code.Tiling
import StackLinker.Proofs.Program.Carriers
import StackLinker.Proofs.Storage.Dependents

namespace StackLinker.Program

variable {program resolved : Program} {options : Options} {summary : Summary} {plan : StoragePlan}

/-! ## Ranges of addresses -/

/-- Settled nodes follow each other from the base to the stop. -/
theorem Settles.consecutive (h : program.Settles options plan summary resolved) :
    Consecutive options.addressBase.toNat resolved.code.nodes summary.addressStop.toNat := by
  rw [h.addressStop, ← Code.span_nodes_eq_of_outline h.outline_code]
  apply Consecutive.of_addresses
  intro id n hn
  have hget : resolved.code.get? id = some n := hn
  obtain ⟨address, haddress, hsum, -⟩ :=
    h.exists_addressOf? ((resolved.code.contains_iff_get? id).mpr ⟨n, hget⟩)
  refine ⟨address, ?_, ?_⟩
  · rw [← haddress, Code.addressOf?, hget, Option.bind_some]
  · rw [hsum, ← Code.unitsBefore_eq_of_outline h.outline_code]
    rfl

/-- A pass that succeeds has found the width of every push. -/
theorem Settles.sized (h : program.Settles options plan summary resolved)
    (hresolve : program.resolve options = (.ok summary, resolved)) {n : Node}
    (hn : n ∈ resolved.code.nodes) : n.Sized := by
  obtain ⟨-, -, addresses, haddresses⟩ :=
    resolve_succeeds_iff.mp ⟨summary, congrArg Prod.fst hresolve⟩
  rw [← Code.planAddresses_eq_of_outline h.outline_code] at haddresses
  exact (Code.exists_planFrom_iff.mp ⟨addresses, haddresses⟩).1 n hn

/-- After a pass the carrier of a jump to a place in the code holds a boundary. -/
theorem Settles.carrier_isBoundary (h : program.Settles options plan summary resolved)
    {place target carrier : NodeId} {n : Node} (hn : program.code.get? place = some n)
    (hjump : n.JumpsTo target carrier) (htarget : program.code.contains target = true)
    (hcarrier : program.code.contains carrier = true) :
    ∃ bytes, (resolved.code.get? carrier).bind Node.payload = some (.address bytes) ∧
      resolved.code.IsBoundary summary.addressStop bytes.decode := by
  obtain ⟨last, bytes, -, hbytes, haddress⟩ := h.exists_last_bytes hn hjump htarget hcarrier
  exact ⟨bytes, hbytes, h.consecutive.isBoundary haddress⟩

/-- **Ranges tile.**  After a pass the nodes for the encoder take ranges that follow each other from
the base to the stop without gap or overlap, none of them empty; what is emitted begins where they
begin, so at addresses that go up and that a jump can carry.  A marker has the address of the next
node for the encoder, or the stop.  The carrier of a jump to a place in the code holds the address
of a node for the encoder, or the stop, and so no place inside a range. -/
theorem encoded_ranges_tile (h : program.resolve options = (.ok summary, resolved)) :
    ∃ ranges,
      (resolved.code.nodes.filter Node.isEncoded).map Node.range? = ranges.map some ∧
      Tiles options.addressBase.toNat ranges summary.addressStop.toNat ∧
      (∀ emissions, resolved.code.emit = .ok emissions →
        emissions.map (fun emission => emission.address.toNat) = ranges.map Prod.fst ∧
        (emissions.Pairwise fun emission later => emission.address < later.address) ∧
        ∀ emission ∈ emissions, emission.address.toNat ≤ JumpAddress.highest) ∧
      (∀ id n, resolved.code.get? id = some n → n.op.isMarker = true →
        n.address = match (resolved.code.nodes.drop (id + 1)).find? Node.isEncoded with
          | some next => next.address
          | none => some summary.addressStop) ∧
      ∀ place n target carrier, program.code.get? place = some n → n.JumpsTo target carrier →
        program.code.contains target = true → program.code.contains carrier = true →
          ∃ bytes, (resolved.code.get? carrier).bind Node.payload = some (.address bytes) ∧
            resolved.code.IsBoundary summary.addressStop bytes.decode ∧
            ∀ r ∈ ranges, ¬ (r.1 < bytes.decode.toNat ∧ bytes.decode.toNat < r.2) := by
  obtain ⟨plan, hsettles⟩ := (pass_of_resolve h).settles
  have hconsecutive := hsettles.consecutive
  obtain ⟨ranges, hranges, htiles⟩ := hconsecutive.exists_tiles fun n hn => hsettles.sized h hn
  refine ⟨ranges, hranges, htiles, ?_, ?_, ?_⟩
  · intro emissions hemit
    have hstarts := Code.starts_of_emit hranges hemit
    refine ⟨hstarts, ?_, ?_⟩
    · have hpairwise : (emissions.map fun emission => emission.address.toNat).Pairwise (· < ·) := by
        rw [hstarts, List.pairwise_map]
        exact htiles.pairwise_starts
      rw [List.pairwise_map] at hpairwise
      exact hpairwise.imp UInt64.lt_iff_toNat_lt.mpr
    · intro emission hmem
      obtain ⟨n, hn, -, -, haddress, -⟩ := ((Code.emits_of_emit hemit).mem_iff emission).mp hmem
      obtain ⟨address, haddress', -, hle⟩ :=
        hsettles.exists_addressOf? ((resolved.code.contains_iff_get? emission.id).mpr ⟨n, hn⟩)
      rw [Code.addressOf?, hn, Option.bind_some, haddress] at haddress'
      rwa [Option.some.inj haddress']
  · intro id n hn hmarker
    exact hconsecutive.address_of_isMarker hn hmarker
  · intro place n target carrier hn hjump htarget hcarrier
    obtain ⟨bytes, hbytes, hboundary⟩ := hsettles.carrier_isBoundary hn hjump htarget hcarrier
    exact ⟨bytes, hbytes, hboundary, fun r hr => hboundary.not_inside hranges htiles hr⟩

/-- A loop with an exit.  The exit is a run of markers at the end of the code. -/
def loopWithExit : Program where
  code := ⟨[
    { op := .target },
    { op := .push, payload := some (.pending 0), width := 4 },
    { op := .jumpi, target := some 5, carrier := some 1 },
    { op := .push, payload := some (.pending 0), width := 4 },
    { op := .jump, target := some 0, carrier := some 3 },
    { op := .target },
    { op := .ignore }]⟩

/-- The ranges of a loop with an exit tile the addresses up to 10, where its last markers lie, and
its carriers hold boundaries. -/
theorem loopWithExit_tiles :
    (loopWithExit.resolve {}).1 = .ok ⟨0, 10, 2⟩ ∧
    (∃ ranges, Tiles 0 ranges 10 ∧
      ∃ bytes, ((loopWithExit.resolve {}).2.code.get? 1).bind Node.payload = some (.address bytes) ∧
        ∀ r ∈ ranges, ¬ (r.1 < bytes.decode.toNat ∧ bytes.decode.toNat < r.2)) ∧
    (loopWithExit.resolve {}).2.code.addressOf? 5 = some 10 := by
  have hsummary : (loopWithExit.resolve {}).1 = .ok ⟨0, 10, 2⟩ := by decide
  obtain ⟨ranges, -, htiles, -, hmarker, hcarrier⟩ :=
    encoded_ranges_tile (Prod.ext hsummary rfl)
  obtain ⟨bytes, hbytes, -, hinside⟩ :=
    hcarrier 2 _ 5 1 rfl ⟨rfl, rfl, rfl⟩ (by decide) (by decide)
  exact ⟨hsummary, ⟨ranges, htiles, bytes, hbytes, hinside⟩, hmarker 5 _ rfl rfl⟩

/-! ## Nodes that still wait -/

/-- Tells that a pass with a storage plan leaves a node for the encoder waiting: its payload is
pending, and nothing that could write it does. -/
structure LeftWaiting (program : Program) (plan : StoragePlan) (id : NodeId) (n : Node) : Prop where
  node : program.code.get? id = some n
  encoded : n.op.isMarker = false
  pending : ∃ relative, n.payload = some (.pending relative)
  unplanned : plan.writes.contains id = false
  undeclared : ∀ name, n.reference = some name → name ≠ "" →
    program.declarations.contains name = false
  uncarried : ∀ place jump target, program.code.get? place = some jump → jump.JumpsTo target id →
    program.code.contains target = false

/-- A node takes nothing from a variable exactly if it refers to none that is declared. -/
theorem Settles.reported?_eq_none_iff (h : program.Settles options plan summary resolved)
    (n : Node) :
    n.reported? plan.layout = none ↔ ∀ name, n.reference = some name → name ≠ "" →
      program.declarations.contains name = false := by
  have hposition : ∀ name, plan.layout.position? name = none ↔
      program.declarations.contains name = false := by
    intro name
    rw [← isSome_position?_of_planStorage h.planned name, Option.isSome_eq_false_iff,
      Option.isNone_iff_eq_none]
  rw [Node.reported?, Option.map_eq_none_iff, Option.bind_eq_none_iff, Node.referenced?]
  simp only [Option.filter_eq_some_iff, decide_eq_true_eq, hposition]
  tauto

/-- The nodes for the encoder that still wait after a pass are those that it has left waiting. -/
theorem Settles.mem_waiting_iff (h : program.Settles options plan summary resolved) {id : NodeId} :
    id ∈ resolved.code.waiting ↔ ∃ n, program.LeftWaiting plan id n := by
  have hplanned : plan.payload? id = none ↔ plan.writes.contains id = false := by
    rw [StoragePlan.payload?, Option.map_eq_none_iff, OrderedMap.contains,
      Option.isSome_eq_false_iff, Option.isNone_iff_eq_none]
  rw [Code.mem_waiting_iff]
  constructor
  · rintro ⟨m, hm, hencoded, hwaits⟩
    rw [h.get?_code] at hm
    obtain ⟨n, hn, rfl⟩ := Option.map_eq_some_iff.mp hm
    obtain ⟨relative, hpending⟩ := Node.waits_iff.mp hwaits
    obtain ⟨hcarried, hreported, hnumber, hown⟩ := Code.finalPayload_eq_pending_iff.mp hpending
    exact ⟨n, hn, by simpa [Node.isEncoded] using hencoded, ⟨relative, hown⟩, hplanned.mp hnumber,
      (h.reported?_eq_none_iff n).mp hreported, Code.carried?_eq_none_iff.mp hcarried⟩
  · rintro ⟨n, hleft⟩
    obtain ⟨relative, hown⟩ := hleft.pending
    refine ⟨_, (h.get?_code id).trans (by rw [hleft.node, Option.map_some]), ?_, ?_⟩
    · simp [Node.isEncoded, hleft.encoded]
    · exact Node.waits_iff.mpr ⟨relative, Code.finalPayload_eq_pending_iff.mpr
        ⟨Code.carried?_eq_none_iff.mpr hleft.uncarried,
          (h.reported?_eq_none_iff n).mpr hleft.undeclared, hplanned.mpr hleft.unplanned, hown⟩⟩

/-- **What the encoder gets.**  A pass plans a number for what depends on a declared variable, by
the kind of the variable, and leaves waiting what neither its plan nor another link reaches.  After
it no node is refused for want of an address.  Emitting succeeds exactly if no node was left
waiting, and otherwise the first that was is the fault.  What is emitted are the nodes that are no
markers, each once and in the order of the code, with their operations, final addresses and final
literals. -/
theorem emit_after_resolve (h : program.resolve options = (.ok summary, resolved)) :
    ∃ plan,
      planStorage program.declarations program.tables program.code options.memoryBase = .ok plan ∧
      (∀ id, plan.writes.contains id = true ↔ program.code.contains id = true ∧ ∃ name slot,
        program.declarations.get? name = some slot ∧ id ∈ slot.dependents program.tables name) ∧
      (∀ id, resolved.code.emit ≠ .error (.notAddressed id)) ∧
      ((∃ emissions, resolved.code.emit = .ok emissions) ↔
        ∀ id n, ¬ program.LeftWaiting plan id n) ∧
      (∀ fault, resolved.code.emit = .error fault ↔ ∃ id, fault = .unresolvedPayload id ∧
        (∃ n, program.LeftWaiting plan id n) ∧
        ∀ earlier n, program.LeftWaiting plan earlier n → id ≤ earlier) ∧
      ∀ emissions, resolved.code.emit = .ok emissions → resolved.code.Emits emissions := by
  obtain ⟨plan, hsettles⟩ := (pass_of_resolve h).settles
  have hreports := Code.emit_reports_of_addressed hsettles.addressed
  have hfault : ∀ fault, resolved.code.emit = .error fault ↔
      ∃ id, fault = .unresolvedPayload id ∧ (∃ n, program.LeftWaiting plan id n) ∧
        ∀ earlier n, program.LeftWaiting plan earlier n → id ≤ earlier := by
    intro fault
    rw [hreports.eq_error_iff, List.head?_map, Option.map_eq_some_iff]
    simp only [Code.head?_waiting_eq_some_iff, hsettles.mem_waiting_iff]
    constructor
    · rintro ⟨id, ⟨hleft, hfirst⟩, rfl⟩
      exact ⟨id, rfl, hleft, fun earlier n hn => hfirst earlier ⟨n, hn⟩⟩
    · rintro ⟨id, rfl, hleft, hfirst⟩
      exact ⟨id, ⟨hleft, fun earlier ⟨n, hn⟩ => hfirst earlier n hn⟩, rfl⟩
  refine ⟨plan, hsettles.planned, contains_writes_iff hsettles.planned, ?_, ?_, hfault,
    fun _ => Code.emits_of_emit⟩
  · intro id hemit
    obtain ⟨id', heq, -⟩ := (hfault _).mp hemit
    cases heq
  · rw [hreports.exists_ok_iff, List.map_eq_nil_iff, List.eq_nil_iff_forall_not_mem]
    simp only [hsettles.mem_waiting_iff, not_exists]

/-- An entry in the array table of a scalar.  Nothing depends on the place of a scalar but the node
that it links to, so the entry is not shifted. -/
def stranded : Program where
  code := ⟨[{ op := .push, payload := some (.pending 3), width := 1 }]⟩
  declarations := OrderedMap.insert ∅ "x" { kind := .scalar, size := 1 }
  tables := { arrays := EntryTable.register ∅ "x" 0 }

/-- A program with overlapping links is emitted, and one with an entry under a scalar is not: the
entry is left waiting. -/
theorem emit_overlapping_stranded :
    (∃ emissions, (overlapping.resolve {}).2.code.emit = .ok emissions ∧
      (overlapping.resolve {}).2.code.Emits emissions) ∧
    (stranded.resolve {}).1 = .ok ⟨1, 1, 0⟩ ∧
    (∃ plan, planStorage stranded.declarations stranded.tables stranded.code 0 = .ok plan ∧
      ∃ n, stranded.LeftWaiting plan 0 n) ∧
    (stranded.resolve {}).2.code.emit = .error (.unresolvedPayload 0) := by
  have hoverlapping : (overlapping.resolve {}).1 = .ok ⟨3, 5, 1⟩ := by decide
  have hstranded : (stranded.resolve {}).1 = .ok ⟨1, 1, 0⟩ := by decide
  obtain ⟨_, -, -, -, -, -, hemits⟩ := emit_after_resolve (Prod.ext hoverlapping rfl)
  obtain ⟨plan, hplan, -, -, -, hfault, -⟩ := emit_after_resolve (Prod.ext hstranded rfl)
  have hemit : (stranded.resolve {}).2.code.emit = .error (.unresolvedPayload 0) := by decide
  obtain ⟨id, heq, hleft, -⟩ := (hfault _).mp hemit
  cases heq
  refine ⟨?_, hstranded, ⟨plan, hplan, hleft⟩, hemit⟩
  have hok : (overlapping.resolve {}).2.code.emit.isOk = true := by decide
  cases hcase : (overlapping.resolve {}).2.code.emit with
  | ok emissions => exact ⟨emissions, rfl, hemits emissions hcase⟩
  | error fault =>
    rw [hcase] at hok
    cases hok

end StackLinker.Program
