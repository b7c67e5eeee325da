/-
# Moving storage to another base

A pass brings the places of variables into the code in four ways: through the entries of arrays and
of strings, through links, and through references.  If no node is shifted twice, nor shifted and
reset, each of them adds the base once.  So two passes over one program from memory bases that
differ by some distance leave numbers that differ by it, and jumps, other payloads and addresses
that do not differ at all.
-/
import StackLinker.Proofs.Program.Rebasing
import StackLinker.Proofs.Storage.Displacement

namespace StackLinker

/-! ## Numbers of a plan -/

/-- The number that a node takes from its variable, else from the plan. -/
def StoragePlan.numberFor? (plan : StoragePlan) (id : NodeId) (n : Node) : Option Offset :=
  (n.referenced?.bind plan.layout.position?).or (plan.writes.get? id)

/-- What the pass leaves at a node is what the last jump asks it to carry, else its number, else its
own payload. -/
theorem Code.finalPayload_eq (code : Code) (plan : StoragePlan) (base : Address) (id : NodeId)
    (n : Node) : code.finalPayload plan base id n =
      (code.carried? base id).or (((plan.numberFor? id n).map Payload.number).or n.payload) := by
  rw [finalPayload, StoragePlan.numberFor?, Node.reported?, StoragePlan.payload?]
  cases n.referenced?.bind plan.layout.position? <;> rfl

/-- A node has a number in both of two displaced plans, and these lie the distance apart, or in
neither. -/
theorem StoragePlan.Displaced.numberFor? {distance : Int} {plan plan' : StoragePlan}
    (h : plan.Displaced distance plan') (id : NodeId) (n : Node) :
    Option.Rel (Offset.Displaced distance) (plan.numberFor? id n) (plan'.numberFor? id n) := by
  have hreported : Option.Rel (Offset.Displaced distance) (n.referenced?.bind plan.layout.position?)
      (n.referenced?.bind plan'.layout.position?) := by
    cases n.referenced? with
    | none => exact .none
    | some name => exact h.layout.position? name
  rw [StoragePlan.numberFor?, StoragePlan.numberFor?]
  generalize n.referenced?.bind plan.layout.position? = x at hreported
  generalize n.referenced?.bind plan'.layout.position? = x' at hreported
  cases hreported with
  | none => exact h.number id
  | some hdisplaced => exact .some hdisplaced

/-- A node of the code carries no address exactly if it is no carrier of a jump with both links in
the code. -/
theorem Code.carried?_eq_none_iff_notMem {code : Code} {base : Address} {id : NodeId}
    (hid : code.contains id = true) : code.carried? base id = none ↔ id ∉ code.carriers := by
  rw [carried?_eq_none_iff, carriers, List.mem_filterMap]
  constructor
  · rintro h ⟨n, hmem, hcarrier⟩
    obtain ⟨target, hjump, htarget, -⟩ := carrierOf?_eq_some_iff.mp hcarrier
    obtain ⟨place, hn⟩ := List.getElem?_of_mem hmem
    rw [h place n target hn hjump] at htarget
    cases htarget
  · intro h place n target hn hjump
    rw [← Bool.not_eq_true]
    intro htarget
    exact h ⟨n, List.mem_of_getElem? hn, carrierOf?_eq_some_iff.mpr ⟨target, hjump, htarget, hid⟩⟩

namespace Program

/-- The offset of the first storage unit of a variable, as the pass has placed it. -/
def baseOf? (program : Program) (name : String) : Option Offset :=
  program.layout.bind fun layout => layout.base? name

/-- Tells that a node has its last payload from the storage of variables: no jump patches it, and
the storage plan writes it, or it refers to a variable that has a place. -/
structure HoldsStorage (program : Program) (options : Options) (plan : StoragePlan) (id : NodeId)
    (n : Node) : Prop where
  unpatched : id ∉ program.patched options
  written : plan.writes.contains id = true ∨
    ∃ name position, n.referenced? = some name ∧ plan.layout.position? name = some position

variable {program resolved : Program} {options : Options} {summary : Summary} {plan : StoragePlan}
  {id : NodeId} {n : Node}

/-- A node is written by the plan or through its reference exactly if it has a number. -/
theorem isSome_numberFor?_iff :
    (plan.numberFor? id n).isSome = true ↔ plan.writes.contains id = true ∨ ∃ name position,
      n.referenced? = some name ∧ plan.layout.position? name = some position := by
  rw [StoragePlan.numberFor?, Option.isSome_or, Bool.or_eq_true, or_comm]
  refine or_congr Iff.rfl ?_
  rw [Option.isSome_iff_exists]
  simp only [Option.bind_eq_some_iff]
  constructor
  · rintro ⟨position, name, hname, hposition⟩
    exact ⟨name, position, hname, hposition⟩
  · rintro ⟨name, position, hname, hposition⟩
    exact ⟨position, name, hname, hposition⟩

/-- After a pass a node carries its final payload. -/
theorem Settles.payload_eq (h : program.Settles options plan summary resolved)
    (hn : program.code.get? id = some n) : (resolved.code.get? id).bind Node.payload =
      program.code.finalPayload plan options.addressBase id n := by
  rw [h.get?_code, hn, Option.map_some, Option.bind_some]

/-- Passes over one program from one address base leave the same addresses. -/
theorem Settles.addressOf?_eq {resolved' : Program} {options' : Options} {plan' : StoragePlan}
    {summary' : Summary} (h : program.Settles options plan summary resolved)
    (h' : program.Settles options' plan' summary' resolved')
    (haddress : options'.addressBase = options.addressBase) (id : NodeId) :
    resolved'.code.addressOf? id = resolved.code.addressOf? id := by
  cases hn : program.code.get? id with
  | none =>
    rw [Code.addressOf?, Code.addressOf?, h.get?_code, h'.get?_code, hn]
    rfl
  | some n =>
    obtain ⟨address, hsum, -, hresolved⟩ := h.node hn
    obtain ⟨address', hsum', -, hresolved'⟩ := h'.node hn
    have heq : address' = address := by
      rw [haddress, ← hsum] at hsum'
      exact UInt64.toNat_inj.mp hsum'
    rw [Code.addressOf?, Code.addressOf?, hresolved, hresolved', heq]
    rfl

/-- A variable that is declared has a base and a position after a pass: those of the plan. -/
theorem Settles.exists_placement (h : program.Settles options plan summary resolved) {name : String}
    (hname : program.declarations.contains name = true) : ∃ base position,
      plan.layout.base? name = some base ∧ resolved.baseOf? name = some base ∧
        plan.layout.position? name = some position ∧ resolved.offsetOf? name = some position := by
  have hlayout : resolved.layout = some plan.layout := by rw [h.frame]
  have hreported := h.reported name
  rw [hname, offsetOf?, hlayout, Option.bind_some, Layout.position?, Option.isSome_map] at hreported
  obtain ⟨placement, hplacement⟩ := Option.isSome_iff_exists.mp hreported
  have hbase : plan.layout.base? name = some placement.base := by
    rw [Layout.base?, hplacement, Option.map_some]
  have hposition : plan.layout.position? name = some placement.position := by
    rw [Layout.position?, hplacement, Option.map_some]
  refine ⟨placement.base, placement.position, hbase, ?_, hposition, ?_⟩
  · rw [baseOf?, hlayout, Option.bind_some, hbase]
  · rw [offsetOf?, hlayout, Option.bind_some, hposition]

/-! ## Two passes -/

/-- **Storage moves with its base.**  If every node of the code is listed once at most for the
arrays and strings of a program, and no link of a scalar or of a variable of no special kind leads
to a node that is listed, then passes from memory bases that differ by a distance leave bases,
reported positions and ends of storage that differ by it.  Nodes that have their last payload from
the storage of variables carry numbers that differ by it; all other payloads, all addresses and the
number of relocated jumps are the same. -/
theorem resolve_displaced {resolved' : Program} {options' : Options} {summary' : Summary}
    {distance : Int} (hlisted : ListedOnce program.declarations program.tables program.code)
    (hmemory : options'.memoryBase.toInt = options.memoryBase.toInt + distance)
    (haddress : options'.addressBase = options.addressBase)
    (h : program.resolve options = (.ok summary, resolved))
    (h' : program.resolve options' = (.ok summary', resolved')) :
    ∃ plan,
      planStorage program.declarations program.tables program.code options.memoryBase = .ok plan ∧
      (∀ name, program.declarations.contains name = true → ∃ base base' position position',
        resolved.baseOf? name = some base ∧ resolved'.baseOf? name = some base' ∧
        base'.toInt = base.toInt + distance ∧
        resolved.offsetOf? name = some position ∧ resolved'.offsetOf? name = some position' ∧
        position'.toInt = position.toInt + distance) ∧
      summary'.memoryStop.toInt = summary.memoryStop.toInt + distance ∧
      (∀ id n, program.code.get? id = some n → program.HoldsStorage options plan id n →
        ∃ number number',
          (resolved.code.get? id).bind Node.payload = some (.number number) ∧
          (resolved'.code.get? id).bind Node.payload = some (.number number') ∧
          number'.toInt = number.toInt + distance) ∧
      (∀ id n, program.code.get? id = some n → ¬ program.HoldsStorage options plan id n →
        (resolved'.code.get? id).bind Node.payload = (resolved.code.get? id).bind Node.payload) ∧
      (∀ id, resolved'.code.addressOf? id = resolved.code.addressOf? id) ∧
      summary'.addressStop = summary.addressStop ∧ summary'.relocated = summary.relocated := by
  obtain ⟨plan, hsettles⟩ := (pass_of_resolve h).settles
  obtain ⟨plan', hsettles'⟩ := (pass_of_resolve h').settles
  have hdisplaced : plan.Displaced distance plan' :=
    hlisted.displaced_planStorage hmemory hsettles.planned hsettles'.planned
  have hpatched := patched_of_resolve h
  refine ⟨plan, hsettles.planned, ?_, ?_, ?_, ?_, ?_, ?_, ?_⟩
  · intro name hname
    obtain ⟨base, position, hbase, hbaseOf, hposition, hoffset⟩ := hsettles.exists_placement hname
    obtain ⟨base', position', hbase', hbaseOf', hposition', hoffset'⟩ :=
      hsettles'.exists_placement hname
    have hbases := hdisplaced.layout.base? name
    have hpositions := hdisplaced.layout.position? name
    rw [hbase, hbase'] at hbases
    rw [hposition, hposition'] at hpositions
    cases hbases with
    | some hbases =>
      cases hpositions with
      | some hpositions =>
        exact ⟨base, base', position, position', hbaseOf, hbaseOf', hbases, hoffset, hoffset',
          hpositions⟩
  · rw [hsettles.memoryStop, hsettles'.memoryStop]
    exact hdisplaced.layout.stop
  · intro id n hn hholds
    have hid := (program.code.contains_iff_get? id).mpr ⟨n, hn⟩
    have hcarried : program.code.carried? options.addressBase id = none :=
      (Code.carried?_eq_none_iff_notMem hid).mpr (hpatched ▸ hholds.unpatched)
    obtain ⟨number, hnumber⟩ :=
      Option.isSome_iff_exists.mp (isSome_numberFor?_iff.mpr hholds.written)
    obtain ⟨number', hnumber', hnumbers⟩ := exists_of_rel (hdisplaced.numberFor? id n) hnumber
    refine ⟨number, number', ?_, ?_, hnumbers⟩
    · rw [hsettles.payload_eq hn, Code.finalPayload_eq, hcarried, hnumber]
      rfl
    · rw [hsettles'.payload_eq hn, Code.finalPayload_eq, haddress, hcarried, hnumber']
      rfl
  · intro id n hn hholds
    have hid := (program.code.contains_iff_get? id).mpr ⟨n, hn⟩
    rw [hsettles.payload_eq hn, hsettles'.payload_eq hn, Code.finalPayload_eq, Code.finalPayload_eq,
      haddress]
    cases hcarried : program.code.carried? options.addressBase id with
    | some payload => rfl
    | none =>
      -- No jump patches the node, so neither its reference nor the plan has a number for it.
      have hunpatched : id ∉ program.patched options := by
        rw [hpatched]
        exact (Code.carried?_eq_none_iff_notMem hid).mp hcarried
      have hnone : plan.numberFor? id n = none := by
        rw [← Option.not_isSome_iff_eq_none, isSome_numberFor?_iff]
        intro hwritten
        exact hholds ⟨hunpatched, hwritten⟩
      have hnone' : plan'.numberFor? id n = none := by
        rw [← Option.not_isSome_iff_eq_none, ← isSome_eq_of_rel (hdisplaced.numberFor? id n), hnone]
        exact Bool.false_ne_true
      rw [hnone, hnone']
  · exact hsettles.addressOf?_eq hsettles' haddress
  · rw [← UInt64.toNat_inj, hsettles.addressStop, hsettles'.addressStop, haddress]
  · rw [hsettles.relocated, hsettles'.relocated]

/-- An array, a string and a scalar.  One entry of the string carries a jump back, the other and the
array entry refer to variables, and the last push is listed for the scalar, which does not count. -/
def mixedStorage : Program where
  code := ⟨[
    { op := .target },
    { op := .push, payload := some (.pending 3), width := 1 },
    { op := .push, payload := some (.literal (.text " 5 ")), reference := some "s", width := 2 },
    { op := .push, payload := some (.pending 1), width := 1 },
    { op := .jump, target := some 0, carrier := some 3 },
    { op := .push, width := 1 },
    { op := .push, payload := some (.literal (.text "raw")), width := 1 }]⟩
  declarations := ((OrderedMap.insert ∅ "a" { kind := .array, size := 4 }).insert "s"
    { kind := .string, size := 2 }).insert "x" { kind := .scalar, size := 1, link := some 5 }
  tables := {
    arrays := EntryTable.register (EntryTable.register ∅ "a" 1) "x" 6
    strings := EntryTable.register (EntryTable.register ∅ "s" 3) "s" 2 }

/-- Seven below the first base the reference to the string carries a number that is less by seven,
and the carrier of the jump and the raw text are the same. -/
theorem mixedStorage_displaced :
    ListedOnce mixedStorage.declarations mixedStorage.tables mixedStorage.code ∧
    (mixedStorage.resolve ⟨16, 4⟩).1 = .ok ⟨11, 23, 1⟩ ∧
    (mixedStorage.resolve ⟨16, -3⟩).1 = .ok ⟨4, 23, 1⟩ ∧
    (∃ number number',
      ((mixedStorage.resolve ⟨16, 4⟩).2.code.get? 2).bind Node.payload = some (.number number) ∧
      ((mixedStorage.resolve ⟨16, -3⟩).2.code.get? 2).bind Node.payload = some (.number number') ∧
      number'.toInt = number.toInt + -7) ∧
    ∀ id ∈ [3, 6], ((mixedStorage.resolve ⟨16, -3⟩).2.code.get? id).bind Node.payload =
      ((mixedStorage.resolve ⟨16, 4⟩).2.code.get? id).bind Node.payload := by
  have hlisted : ListedOnce mixedStorage.declarations mixedStorage.tables mixedStorage.code :=
    ⟨by decide, by decide⟩
  have hsummary : (mixedStorage.resolve ⟨16, 4⟩).1 = .ok ⟨11, 23, 1⟩ := by decide
  have hsummary' : (mixedStorage.resolve ⟨16, -3⟩).1 = .ok ⟨4, 23, 1⟩ := by decide
  have hmemory :
      (⟨16, -3⟩ : Options).memoryBase.toInt = (⟨16, 4⟩ : Options).memoryBase.toInt + -7 := by
    decide
  obtain ⟨plan, hplan, -, -, hholds, hkept, -⟩ :=
    resolve_displaced hlisted hmemory rfl (Prod.ext hsummary rfl) (Prod.ext hsummary' rfl)
  have hpatched : mixedStorage.patched ⟨16, 4⟩ = [3] := by decide
  -- What the plan has for the string and for the last push.
  have hplanned :
      (planStorage mixedStorage.declarations mixedStorage.tables mixedStorage.code 4).map
        (fun plan => (plan.layout.position? "s", plan.writes.contains 6)) =
          .ok (some 13, false) := by decide
  rw [hplan] at hplanned
  obtain ⟨hposition, hunplanned⟩ := Prod.mk.inj (Except.ok.inj hplanned)
  refine ⟨hlisted, hsummary, hsummary', ?_, ?_⟩
  · refine hholds 2 _ rfl ⟨by simp [hpatched], .inr ⟨"s", 13, rfl, hposition⟩⟩
  · intro id hid
    rcases List.mem_cons.mp hid with rfl | hid
    · refine hkept 3 _ rfl fun h => h.unpatched (by simp [hpatched])
    · obtain rfl := List.mem_singleton.mp hid
      refine hkept 6 _ rfl ?_
      rintro ⟨-, hwritten | ⟨name, position, hname, -⟩⟩
      · rw [hunplanned] at hwritten
        cases hwritten
      · cases hname

end Program

end StackLinker
