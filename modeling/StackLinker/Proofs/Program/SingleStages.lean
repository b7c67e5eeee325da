/-
# Single stages

What addressing and relocation do when they are run by hand, on code in any state.  Each of them
either fails with the first fault in the order of the code and leaves the program as it was, or
writes all it has to write.
-/
import StackLinker.Proofs.Code.Patching
import StackLinker.Proofs.Program.History
import StackLinker.Proofs.Program.Rebasing
import Mathlib.Data.Nat.Find

namespace StackLinker

/-! ## Addressing -/

namespace Code

variable {code : Code} {base : Address} {plan : AddressPlan}

/-- The node at a place cannot be addressed: jumps cannot reach its place, or it is a push without a
width. -/
def Misplaces (code : Code) (base : Address) (id : NodeId) : Prop :=
  ∃ n, code.get? id = some n ∧
    (JumpAddress.highest < base.toNat + code.unitsBefore id ∨ n.op = .push ∧ n.width = 0)

/-- There is a plan exactly if jumps can reach every place and every push has its width. -/
theorem exists_planAddresses_iff : (∃ plan, code.planAddresses base = .ok plan) ↔
    (∀ id, code.contains id = true → base.toNat + code.unitsBefore id ≤ JumpAddress.highest) ∧
      ∀ n ∈ code.nodes, n.op = .push → n.width ≠ 0 := by
  rw [planAddresses, exists_planFrom_iff, and_comm]
  simp only [contains, decide_eq_true_iff]
  exact Iff.rfl

/-- Without a plan some node cannot be addressed. -/
theorem exists_misplaces (h : ¬ ∃ plan, code.planAddresses base = .ok plan) :
    ∃ id, code.Misplaces base id := by
  by_contra hnone
  refine h (exists_planAddresses_iff.mpr ⟨?_, ?_⟩)
  · intro id hid
    obtain ⟨n, hn⟩ := (code.contains_iff_get? id).mp hid
    exact Nat.le_of_not_lt fun hhigh => hnone ⟨id, n, hn, .inl hhigh⟩
  · intro n hmem hop hwidth
    obtain ⟨id, hn⟩ := List.getElem?_of_mem hmem
    exact hnone ⟨id, n, hn, .inr ⟨hop, hwidth⟩⟩

/-- **The first node that cannot be addressed.**  Without a plan there is a first such node, and the
fault is that its place is out of reach, or else that it has no width. -/
theorem exists_first_misplaced (h : ¬ ∃ plan, code.planAddresses base = .ok plan) :
    ∃ id n reached, code.get? id = some n ∧ reached.toNat = base.toNat + code.unitsBefore id ∧
      (∀ earlier, earlier < id → ¬ code.Misplaces base earlier) ∧
      ((JumpAddress.highest < reached.toNat ∧
        code.planAddresses base = .error (.addressOverflow reached)) ∨
        (reached.toNat ≤ JumpAddress.highest ∧ n.op = .push ∧ n.width = 0 ∧
          code.planAddresses base = .error (.zeroWidth id))) := by
  classical
  obtain ⟨id, ⟨n, hn, hfault⟩, hfirst⟩ : ∃ id, code.Misplaces base id ∧ ∀ earlier, earlier < id →
      ¬ code.Misplaces base earlier :=
    ⟨_, Nat.find_spec (exists_misplaces h), fun _ => Nat.find_min (exists_misplaces h)⟩
  have hearlier : ∀ earlier m, earlier < id → code.nodes[earlier]? = some m →
      base.toNat + span (code.nodes.take earlier) ≤ JumpAddress.highest ∧ m.Sized := by
    intro earlier m hlt hm
    refine ⟨Nat.le_of_not_lt fun hhigh => hfirst earlier hlt ⟨m, hm, .inl hhigh⟩, ?_⟩
    intro hop hwidth
    exact hfirst earlier hlt ⟨m, hm, .inr ⟨hop, hwidth⟩⟩
  have hunplaced : JumpAddress.highest < base.toNat + code.unitsBefore id ∨ ¬ n.Sized :=
    hfault.imp_right fun hpush hsized => hsized hpush.1 hpush.2
  obtain ⟨reached, hreached, herror⟩ := planFrom_eq_error 0 hn hearlier hunplaced
  rw [Nat.zero_add] at herror
  refine ⟨id, n, reached, hn, hreached, hfirst, ?_⟩
  by_cases hhigh : JumpAddress.highest < reached.toNat
  · rw [if_pos hhigh] at herror
    exact .inl ⟨hhigh, herror⟩
  · rw [if_neg hhigh] at herror
    obtain ⟨hop, hwidth⟩ := hfault.resolve_left (hreached ▸ hhigh)
    exact .inr ⟨Nat.le_of_not_lt hhigh, hop, hwidth, herror⟩

/-- **What a plan has.**  The addresses are the base and the units before each node, none below the
one before it, and the plan stops at the base and all units. -/
theorem addresses_of_planAddresses (h : code.planAddresses base = .ok plan) :
    plan.addresses.map UInt64.toNat =
        (List.range code.size).map (fun id => base.toNat + code.unitsBefore id) ∧
      plan.addresses.Pairwise (· ≤ ·) ∧ plan.stop.toNat = base.toNat + span code.nodes := by
  have hcovers := covers_of_planAddresses h
  have haddresses : plan.addresses.map UInt64.toNat =
      (List.range code.size).map fun id => base.toNat + code.unitsBefore id := by
    apply List.ext_getElem?
    intro id
    rw [List.getElem?_map, List.getElem?_map]
    by_cases hid : id < code.size
    · obtain ⟨address, haddress, hsum, -⟩ := exists_address_of_planAddresses h (decide_eq_true hid)
      rw [haddress, List.getElem?_range hid, Option.map_some, Option.map_some, hsum]
    · have hlength : plan.addresses.length = code.size := hcovers.length_addresses
      rw [List.getElem?_eq_none (by omega), List.getElem?_eq_none (by simpa using hid)]
      rfl
  have hsorted : (plan.addresses.map UInt64.toNat).Pairwise (· ≤ ·) := by
    rw [haddresses, List.pairwise_map]
    exact List.pairwise_lt_range.imp fun hlt =>
      Nat.add_le_add_left (code.unitsBefore_mono (Nat.le_of_lt hlt)) _
  exact ⟨haddresses,
    (List.pairwise_map.mp hsorted).imp UInt64.le_iff_toNat_le.mpr, hcovers.toNat_stop⟩

/-- **Addressing, exactly.**  There is a plan exactly if jumps can reach every place and every push
has its width; it has the base and the units before each node, and stops at the base and all units,
which for empty code is the base.  Otherwise the fault is that of the first node that cannot be
addressed: its place is out of reach, or else it has no width.  No sum that is formed on the way
overflows.  Assigning addresses fails like planning and then changes nothing, or gives each node its
planned address and what its variable reports. -/
theorem planAddresses_exactly (code : Code) (base : Address) :
    ((∃ plan, code.planAddresses base = .ok plan) ↔
      (∀ id, code.contains id = true → base.toNat + code.unitsBefore id ≤ JumpAddress.highest) ∧
        ∀ n ∈ code.nodes, n.op = .push → n.width ≠ 0) ∧
    (∀ plan, code.planAddresses base = .ok plan →
      plan.addresses.map UInt64.toNat =
        (List.range code.size).map (fun id => base.toNat + code.unitsBefore id) ∧
      plan.addresses.Pairwise (· ≤ ·) ∧ plan.stop.toNat = base.toNat + span code.nodes) ∧
    (code.nodes = [] → code.planAddresses base = .ok ⟨[], base⟩) ∧
    ((¬ ∃ plan, code.planAddresses base = .ok plan) → ∃ id n reached, code.get? id = some n ∧
      reached.toNat = base.toNat + code.unitsBefore id ∧
      (∀ earlier, earlier < id → ¬ code.Misplaces base earlier) ∧
      ((JumpAddress.highest < reached.toNat ∧
        code.planAddresses base = .error (.addressOverflow reached)) ∨
        (reached.toNat ≤ JumpAddress.highest ∧ n.op = .push ∧ n.width = 0 ∧
          code.planAddresses base = .error (.zeroWidth id)))) ∧
    (∀ (address units : Address) id (n : Node), address.toNat ≤ JumpAddress.highest →
      n.units id = .ok units →
      ∃ next, address.add? units = some next) ∧
    ∀ layout : Layout,
      (∀ fault, code.planAddresses base = .error fault →
        code.assignAddresses layout base = (.error fault, code) ∧
        ∀ program : Program, program.code = code →
          program.perform (.assignAddresses layout base) = (.error fault, program)) ∧
      ∀ plan, code.planAddresses base = .ok plan → ∃ addressed,
        code.assignAddresses layout base = (.ok plan.stop, addressed) ∧
        ∀ id, addressed.get? id = (code.get? id).map fun n =>
          { n.overwrite (n.reported? layout) with address := plan.addresses[id]? } := by
  refine ⟨exists_planAddresses_iff, fun _ => addresses_of_planAddresses, ?_, exists_first_misplaced,
    fun _ _ _ _ => Node.exists_add?_units, ?_⟩
  · intro hnodes
    rw [planAddresses, hnodes]
    rfl
  · intro layout
    constructor
    · intro fault hfault
      have hassign : code.assignAddresses layout base = (.error fault, code) := by
        rw [assignAddresses, hfault]
      refine ⟨hassign, ?_⟩
      rintro program rfl
      rw [Program.perform, hassign]
      rfl
    · intro plan hplan
      exact ⟨_, assignAddresses_of_planAddresses layout hplan,
        get?_placeAll layout (covers_of_planAddresses hplan).length_addresses⟩

/-- A push that begins at the last place within reach, with two more pushes after it that have no
width. -/
def beyondReach : Code := ⟨[{ op := .push, width := 3 }, { op := .push }, { op := .push }]⟩

/-- The first push alone has a plan that stops out of reach.  With the others after it the place of
the second is out of reach, and from a lower base it is the missing width that keeps it from an
address. -/
theorem beyondReach_exactly :
    (∃ plan, planAddresses ⟨beyondReach.nodes.take 1⟩ 0x7fffffff = .ok plan ∧
      JumpAddress.highest < plan.stop.toNat) ∧
    beyondReach.planAddresses 0x7fffffff = .error (.addressOverflow 0x80000002) ∧
    beyondReach.assignAddresses {} 8 = (.error (.zeroWidth 1), beyondReach) := by
  refine ⟨?_, ?_, ?_⟩
  · obtain ⟨hiff, hplan, -⟩ := planAddresses_exactly ⟨beyondReach.nodes.take 1⟩ 0x7fffffff
    obtain ⟨plan, hok⟩ := hiff.mpr <| by
      refine ⟨?_, by decide⟩
      intro id hid
      obtain rfl : id = 0 := Nat.lt_one_iff.mp (of_decide_eq_true hid)
      decide
    obtain ⟨-, -, hstop⟩ := hplan plan hok
    exact ⟨plan, hok, hstop ▸ by decide⟩
  · obtain ⟨hiff, -, -, hfault, -⟩ := planAddresses_exactly beyondReach 0x7fffffff
    have hnone : ¬ ∃ plan, beyondReach.planAddresses 0x7fffffff = .ok plan :=
      fun hok => absurd (hiff.mp hok).2 (by decide)
    obtain ⟨id, n, reached, hn, hreached, hfirst, herror⟩ := hfault hnone
    have hid : id ≤ 1 := Nat.le_of_not_lt fun hlt => hfirst 1 hlt ⟨_, rfl, .inl (by decide)⟩
    obtain rfl | rfl := Nat.le_one_iff_eq_zero_or_eq_one.mp hid
    · -- The first push is within reach and has its width.
      obtain rfl : { op := .push, width := 3 } = n := Option.some.inj hn
      rcases herror with ⟨hhigh, -⟩ | ⟨-, -, hwidth, -⟩
      · exact absurd (hreached ▸ hhigh) (by decide)
      · exact absurd hwidth (by decide)
    · obtain rfl : reached = 0x80000002 := UInt64.toNat_inj.mp (hreached.trans (by decide))
      rcases herror with ⟨-, herror⟩ | ⟨hle, -⟩
      · exact herror
      · exact absurd hle (by decide)
  · obtain ⟨-, -, -, -, -, hassign⟩ := planAddresses_exactly beyondReach 8
    exact ((hassign {}).1 (.zeroWidth 1) (by decide)).1

end Code

/-! ## Relocation -/

namespace Code

/-- **Relocation, exactly.**  If some node asks for an address that cannot be carried, relocation
fails with that of the first such node and changes nothing.  Otherwise it succeeds: a node of which
an address is asked gets the bytes of the last one, and any other stays as it is.  Wherever it
writes there is a node. -/
theorem relocateJumps_exactly (code : Code) :
    ((∃ place site, code.Asks place site ∧ JumpAddress.highest < site.destination.toNat) →
      ∃ place site, code.Asks place site ∧ JumpAddress.highest < site.destination.toNat ∧
        (∀ earlier site', earlier < place → code.Asks earlier site' →
          site'.destination.toNat ≤ JumpAddress.highest) ∧
        code.relocateJumps = (.error (.addressOverflow site.destination), code) ∧
        ∀ program : Program, program.code = code →
          program.perform .relocateJumps = (.error (.addressOverflow site.destination), program)) ∧
    ((∀ place site, code.Asks place site → site.destination.toNat ≤ JumpAddress.highest) →
      ∃ relocated count, code.relocateJumps = (.ok count, relocated) ∧
        (∀ id, (∃ place site, code.Asks place site ∧ site.carrier = id) →
          ∃ place site n bytes, code.Asks place site ∧ site.carrier = id ∧
            (∀ later site', place < later → code.Asks later site' → site'.carrier ≠ id) ∧
            JumpAddress.encode site.destination = .ok bytes ∧ code.get? id = some n ∧
            relocated.get? id = some { n with payload := some (.address bytes) }) ∧
        ∀ id, (∀ place site, code.Asks place site → site.carrier ≠ id) →
          relocated.get? id = code.get? id) ∧
    ∀ patches before patch after, encodeSites code.jumpSites = .ok patches →
      patches = before ++ patch :: after → (code.patch before).contains patch.1 = true := by
  refine ⟨?_, ?_, fun _ _ _ _ => contains_patch_of_encodeSites⟩
  · intro h
    obtain ⟨place, site, hasks, hhigh, hearlier, herror⟩ := exists_first_of_highest_lt h
    refine ⟨place, site, hasks, hhigh, hearlier, herror, ?_⟩
    rintro program rfl
    rw [Program.perform, herror]
    rfl
  · intro h
    obtain ⟨relocated, hrelocated, hwritten, hkept⟩ := exists_relocated_of_le_highest h
    exact ⟨relocated, _, hrelocated, hwritten, hkept⟩

/-- A first jump has a destination that is too high and a carrier outside the code, a second carries
its destination itself, a third goes forward and a last one has a target without an address. -/
def strayJumps : Code :=
  ⟨[{ op := .target, address := some 0x80000000 },
    { op := .target, address := some 7 },
    { op := .push, payload := some (.pending 3), width := 4 },
    { op := .jump, target := some 0, carrier := some 9 },
    { op := .jumpi, target := some 1, carrier := some 4 },
    { op := .jump, target := some 6, carrier := some 2 },
    { op := .jump, target := some 4, carrier := some 2, address := some 12 }]⟩

/-- The stray jumps and one more to the destination that is too high, with a carrier in the code. -/
def overreachingJumps : Code :=
  strayJumps.push { op := .jump, target := some 0, carrier := some 2 }

/-- The second and the third jump are relocated, and the first stays as it is.  With one more jump
that goes too far relocation fails, and the jumps before it are not relocated either. -/
theorem strayJumps_exactly :
    (∃ relocated count, strayJumps.relocateJumps = (.ok count, relocated) ∧
      relocated.get? 3 = strayJumps.get? 3 ∧ ∃ n, strayJumps.get? 2 = some n ∧
        relocated.get? 2 = some { n with payload := some (.address (JumpAddress.ofNat 12)) }) ∧
    overreachingJumps.relocateJumps =
      (.error (.addressOverflow 0x80000000), overreachingJumps) := by
  constructor
  · have hasks : ∀ place site, strayJumps.Asks place site →
        (place, site) = (4, ⟨4, 7⟩) ∨ (place, site) = (5, ⟨2, 12⟩) := by
      intro place site h
      have hrequests : strayJumps.requests = [(4, ⟨4, 7⟩), (5, ⟨2, 12⟩)] := by decide
      simpa [hrequests] using mem_requests_iff.mpr h
    have hreach : ∀ place site, strayJumps.Asks place site →
        site.destination.toNat ≤ JumpAddress.highest := by
      intro place site h
      obtain heq | heq := hasks place site h <;> cases heq <;> decide
    obtain ⟨relocated, count, hrelocated, hwritten, hkept⟩ :=
      (relocateJumps_exactly strayJumps).2.1 hreach
    refine ⟨relocated, count, hrelocated, hkept 3 ?_, ?_⟩
    · intro place site h
      obtain heq | heq := hasks place site h <;> cases heq <;> decide
    · obtain ⟨place, site, n, bytes, h, hcarrier, -, hbytes, hn, hget⟩ :=
        hwritten 2 ⟨5, ⟨2, 12⟩, mem_requests_iff.mp (by decide), rfl⟩
      obtain heq | heq := hasks place site h
      · cases heq
        exact absurd hcarrier (by decide)
      · cases heq
        cases hbytes
        exact ⟨n, hn, hget⟩
  · obtain ⟨place, site, h, hhigh, -, herror, -⟩ :=
      (relocateJumps_exactly overreachingJumps).1
        ⟨7, ⟨2, 0x80000000⟩, mem_requests_iff.mp (by decide), by decide⟩
    have hdestination : ∀ site ∈ overreachingJumps.jumpSites,
        JumpAddress.highest < site.destination.toNat → site.destination = 0x80000000 := by decide
    rw [herror, hdestination site (mem_jumpSites_iff.mpr ⟨place, h⟩) hhigh]

end Code

/-! ## What is counted -/

namespace Program

/-- **The number of relocated jumps.**  Relocation, by hand or in a pass, counts the places that ask
for an address to be carried.  These are as many as the nodes that it writes exactly if no two of
them ask the same carrier. -/
theorem relocated_countsAskers (code : Code) (program : Program) (options : Options) :
    (∀ relocated count, code.relocateJumps = (.ok count, relocated) →
      code.CountsAskers relocated count) ∧
    ∀ summary resolved, program.resolve options = (.ok summary, resolved) →
      ∃ placed, program.placed options = .ok placed ∧
        placed.relocateJumps = (.ok summary.relocated, resolved.code) ∧
          placed.CountsAskers resolved.code summary.relocated := by
  refine ⟨fun _ _ => Code.countsAskers_of_relocateJumps, ?_⟩
  intro summary resolved h
  obtain ⟨placed, hplaced, hrelocated, -⟩ := exists_placed_of_resolve h
  exact ⟨placed, hplaced, hrelocated, Code.countsAskers_of_relocateJumps hrelocated⟩

/-- Of two jumps with one carrier both are counted, though one node is written. -/
theorem sharedCarrier_counted :
    (sharedCarrier.resolve {}).1 = .ok ⟨0, 3, 2⟩ ∧ ∃ code, sharedCarrier.placed {} = .ok code ∧
      code.askers.card = 2 ∧ code.written.card < 2 ∧ ¬ code.AsksApart := by
  have hsummary : (sharedCarrier.resolve {}).1 = .ok ⟨0, 3, 2⟩ := by decide
  obtain ⟨code, hplaced, -, hcounts⟩ :=
    (relocated_countsAskers sharedCarrier.code sharedCarrier {}).2 _ _ (Prod.ext hsummary rfl)
  have hapart : ¬ code.AsksApart := by
    have hsites : (sharedCarrier.placed {}).map (fun code => code.jumpSites.map JumpSite.carrier) =
      .ok [1, 1] := by decide
    rw [hplaced] at hsites
    have hcarriers : code.jumpSites.map JumpSite.carrier = [1, 1] := Except.ok.inj hsites
    rw [Code.asksApart_iff, hcarriers]
    decide
  refine ⟨hsummary, code, hplaced, hcounts.eq_card_askers.symm, ?_, hapart⟩
  exact Nat.lt_of_le_of_ne hcounts.card_written_le fun heq =>
    hapart (hcounts.card_written_eq_iff.mp heq)

/-- The number of relocated jumps is not that of the nodes which are written: neither for code that
is relocated by hand nor for a program that is resolved. -/
theorem not_forall_relocated_eq_card_written :
    (¬ ∀ (code relocated : Code) count, code.relocateJumps = (.ok count, relocated) →
      count = code.written.card) ∧
    ¬ ∀ (program resolved : Program) options summary code,
      program.resolve options = (.ok summary, resolved) →
        program.placed options = .ok code → summary.relocated = code.written.card := by
  have hsummary : (sharedCarrier.resolve {}).1 = .ok ⟨0, 3, 2⟩ := by decide
  obtain ⟨code, hplaced, hrelocated, -⟩ := exists_placed_of_resolve
    (Prod.ext hsummary rfl :
      sharedCarrier.resolve {} = (.ok ⟨0, 3, 2⟩, (sharedCarrier.resolve {}).2))
  have hcard : (sharedCarrier.placed {}).map (fun code => code.written.card) = .ok 1 := by decide
  rw [hplaced] at hcard
  have hone : code.written.card = 1 := Except.ok.inj hcard
  constructor
  · intro h
    have heq := h code _ _ hrelocated
    rw [hone] at heq
    cases heq
  · intro h
    have heq := h sharedCarrier _ {} ⟨0, 3, 2⟩ code (Prod.ext hsummary rfl) hplaced
    rw [hone] at heq
    cases heq

end Program

end StackLinker
