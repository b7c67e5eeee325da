/-
# Nothing is left out of a valid program

A pass leaves out what it cannot find: a jump without a place for one of its links, a reference to a
variable that is not declared, an entry outside the code.  Main statement: a program is valid
exactly if its names are declared and its links lie in the code, and then a pass leaves out nothing.
-/
import StackLinker.Proofs.Program.Resolve
import StackLinker.Proofs.Program.Validation
import StackLinker.Proofs.Storage.Dependents

namespace StackLinker

/-- Tells whether a node is a jump with both links, wherever they lead. -/
def Node.isLinkedJump (n : Node) : Bool := n.op.isJump && n.target.isSome && n.carrier.isSome

namespace Program

variable {program resolved : Program} {options : Options} {summary : Summary} {plan : StoragePlan}

/-- In closed code every jump with both links is one that a pass relocates. -/
theorem Closed.relocates_eq (h : program.Closed) {id : NodeId} {n : Node}
    (hn : program.code.get? id = some n) : program.code.relocates n = n.isLinkedJump := by
  have htarget : n.target.any program.code.contains = n.target.isSome := by
    cases hlink : n.target with
    | none => rfl
    | some link => exact h.target hn hlink
  have hcarrier : n.carrier.any program.code.contains = n.carrier.isSome := by
    cases hlink : n.carrier with
    | none => rfl
    | some link => exact h.carrier hn hlink
  rw [Code.relocates, Node.isLinkedJump, htarget, hcarrier]

/-- In closed code a pass relocates every jump with both links. -/
theorem Closed.countP_relocates (h : program.Closed) :
    program.code.nodes.countP program.code.relocates =
      program.code.nodes.countP Node.isLinkedJump := by
  apply List.countP_congr
  intro n hmem
  obtain ⟨id, hn⟩ := List.getElem?_of_mem hmem
  rw [h.relocates_eq hn]

/-- In a well linked program what depends on the place of a variable lies in the code. -/
theorem WellLinked.contains_of_mem_dependents (h : program.WellLinked) {name : String} {slot : Slot}
    (hslot : program.declarations.get? name = some slot) {id : NodeId}
    (hid : id ∈ slot.dependents program.tables name) : program.code.contains id = true := by
  rw [Slot.dependents] at hid
  cases hkind : slot.kind with
  | array =>
    rw [hkind] at hid
    exact (h.array hid).2
  | string =>
    rw [hkind] at hid
    exact (h.string hid).2
  | scalar =>
    rw [hkind] at hid
    exact h.link hslot (Option.mem_toList.mp hid)
  | other =>
    rw [hkind] at hid
    exact h.link hslot (Option.mem_toList.mp hid)

/-- After a pass a node that refers to a declared variable, and that no jump names as its carrier,
carries the offset that is reported for the variable. -/
theorem Settles.payload_of_reference (h : program.Settles options plan summary resolved)
    {id : NodeId} {n : Node} {name : String} (hn : program.code.get? id = some n)
    (hname : n.referenced? = some name) (hdeclared : program.declarations.contains name = true)
    (hjump : ¬ ∃ place m target, program.code.get? place = some m ∧ m.JumpsTo target id) :
    ∃ offset, resolved.offsetOf? name = some offset ∧
      (resolved.code.get? id).bind Node.payload = some (.number offset) := by
  have hreported := h.reported name
  rw [hdeclared] at hreported
  obtain ⟨offset, hoffset⟩ := Option.isSome_iff_exists.mp hreported
  have hposition : plan.layout.position? name = some offset := by
    rw [h.frame] at hoffset
    exact hoffset
  have hcarried : program.code.carried? options.addressBase id = none := by
    rw [Code.carried?_eq_none_iff]
    intro place m target hm hto
    exact absurd ⟨place, m, target, hm, hto⟩ hjump
  obtain ⟨address, -, -, hresolved⟩ := h.node hn
  refine ⟨offset, hoffset, ?_⟩
  rw [hresolved, Option.bind_some, Code.finalPayload, hcarried, Node.reported?, hname,
    Option.bind_some, hposition]
  rfl

/-- **Nothing is left out of a valid program.**  A program is valid exactly if it is well linked.
Then a pass relocates every jump with both links, every node with a reference that no jump names as
its carrier ends with the offset reported for its variable, and the storage plan has a number for
every node that depends on the place of a variable. -/
theorem validate_complete (program : Program) :
    (program.validate = .ok () ↔ program.WellLinked) ∧
    ∀ options summary resolved, program.validate = .ok () →
      program.resolve options = (.ok summary, resolved) →
        summary.relocated = program.code.nodes.countP Node.isLinkedJump ∧
        (∀ id n name, program.code.get? id = some n → n.reference = some name → name ≠ "" →
          (¬ ∃ place m target, program.code.get? place = some m ∧ m.JumpsTo target id) →
            ∃ offset, resolved.offsetOf? name = some offset ∧
              (resolved.code.get? id).bind Node.payload = some (.number offset)) ∧
        ∃ plan,
          planStorage program.declarations program.tables program.code options.memoryBase =
            .ok plan ∧
          ∀ name slot, program.declarations.get? name = some slot →
            ∀ id ∈ slot.dependents program.tables name, plan.writes.contains id = true := by
  refine ⟨validate_eq_ok_iff_wellLinked, ?_⟩
  intro options summary resolved hvalid hresolve
  have hlinked := validate_eq_ok_iff_wellLinked.mp hvalid
  obtain ⟨plan, hsettles⟩ := (pass_of_resolve hresolve).settles
  refine ⟨hsettles.relocated.trans (wellLinked_iff.mp hlinked).1.countP_relocates, ?_, plan,
    hsettles.planned, ?_⟩
  · intro id n name hn hname hne hjump
    have hreferenced : n.referenced? = some name :=
      Option.filter_eq_some_iff.mpr ⟨hname, by simpa using hne⟩
    exact hsettles.payload_of_reference hn hreferenced (hlinked.reference hn hname hne) hjump
  · intro name slot hslot id hid
    exact (contains_writes_iff hsettles.planned id).mpr
      ⟨hlinked.contains_of_mem_dependents hslot hid, name, slot, hslot, hid⟩

/-- Nothing is left out of a program with overlapping links: its jump is relocated, its first entry
ends with the offset that its reference asks for, and the carrier of the jump is planned as an
entry. -/
theorem overlapping_complete :
    overlapping.validate = .ok () ∧ overlapping.WellLinked ∧
    (overlapping.resolve {}).1 = .ok ⟨3, 5, overlapping.code.nodes.countP Node.isLinkedJump⟩ ∧
    (∃ offset, (overlapping.resolve {}).2.offsetOf? "s" = some offset ∧
      ((overlapping.resolve {}).2.code.get? 1).bind Node.payload = some (.number offset)) ∧
    ∃ plan,
      planStorage overlapping.declarations overlapping.tables overlapping.code 0 = .ok plan ∧
        plan.writes.contains 2 = true := by
  have hvalid : overlapping.validate = .ok () := by decide
  have hsummary : (overlapping.resolve {}).1 = .ok ⟨3, 5, 1⟩ := by decide
  obtain ⟨hiff, hcomplete⟩ := validate_complete overlapping
  obtain ⟨hrelocated, hreference, plan, hplan, hwrites⟩ :=
    hcomplete {} ⟨3, 5, 1⟩ _ hvalid (Prod.ext hsummary rfl)
  refine ⟨hvalid, hiff.mp hvalid, hrelocated ▸ hsummary, ?_, plan, hplan, ?_⟩
  · refine hreference 1 _ "s" rfl rfl (by decide) ?_
    -- The only jump has another carrier.
    rintro ⟨place, m, target, hm, hjump⟩
    have hmem : m ∈ overlapping.code.nodes := List.mem_of_getElem? hm
    have hnone : ∀ n ∈ overlapping.code.nodes, n.carrier ≠ some 1 := by decide
    exact hnone m hmem hjump.carrier
  · exact hwrites "s" { kind := .string, size := 2 } (by decide) 2 (by decide)

end Program

end StackLinker
