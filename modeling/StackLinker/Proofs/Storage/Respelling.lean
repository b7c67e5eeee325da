/-
# Numbers given as texts

A storage plan looks at the payload of a node only for the number from which the node is shifted.
So code in which numbers are given as texts, or texts as numbers, has the same plan, or the same
fault.
-/
import StackLinker.Storage.Plan
import StackLinker.Proofs.Literal
import StackLinker.Proofs.Pairing

namespace StackLinker

/-! ## What a plan looks at -/

/-- The numbers from which the nodes of code are shifted, in order. -/
def Code.relativeOffsets (code : Code) : List Offset := code.nodes.map Node.relativeOffset

section Congruence

variable {code code' : Code} (h : code.relativeOffsets = code'.relativeOffsets)

include h

/-- At each place both codes have a node that is shifted from the same number, or none. -/
theorem Code.get?_of_relativeOffsets_eq (id : NodeId) :
    (code.get? id = none ∧ code'.get? id = none) ∨
      ∃ n n', code.get? id = some n ∧ code'.get? id = some n' ∧
        n.relativeOffset = n'.relativeOffset := by
  have hid := congrArg (fun offsets => offsets[id]?) h
  simp only [relativeOffsets, List.getElem?_map] at hid
  change (code.get? id).map Node.relativeOffset = (code'.get? id).map Node.relativeOffset at hid
  cases hn : code.get? id with
  | none =>
    rw [hn, Option.map_none] at hid
    exact .inl ⟨rfl, Option.map_eq_none_iff.mp hid.symm⟩
  | some n =>
    rw [hn, Option.map_some] at hid
    obtain ⟨n', hn', hoffset⟩ := Option.map_eq_some_iff.mp hid.symm
    exact .inr ⟨n, n', rfl, hn', hoffset.symm⟩

namespace StoragePlan

/-- An entry is shifted to the same number. -/
theorem shift_congr : shift code = shift code' := by
  funext name base reporting plan id
  rcases Code.get?_of_relativeOffsets_eq h id with ⟨hn, hn'⟩ | ⟨n, n', hn, hn', hoffset⟩
  · rw [shift, shift, hn, hn']
  · simp only [shift, hn, hn', relative, hoffset]

/-- A variable has the same effect on a plan. -/
theorem visit_congr (tables : EntryTables) : visit code tables = visit code' tables := by
  have hcontains : code.contains = code'.contains := by
    have hlength := congrArg List.length h
    rw [Code.relativeOffsets, Code.relativeOffsets, List.length_map, List.length_map] at hlength
    funext id
    rw [Code.contains, Code.contains, Code.size, Code.size, hlength]
  funext plan declared
  simp only [visit, shift_congr h, hcontains]

end StoragePlan

/-- Code whose nodes are shifted from the same numbers has the same storage plan, or the same
fault. -/
theorem planStorage_congr (declarations : Declarations) (tables : EntryTables) (base : Offset) :
    planStorage declarations tables code base = planStorage declarations tables code' base := by
  rw [planStorage, planStorage, StoragePlan.visit_congr h]

end Congruence

/-! ## Other spellings -/

/-- Tells that a node is the same as another but for the number that it carries, pending or final,
which may be given as a text. -/
inductive Node.Respelled : Node → Node → Prop
  | same (n : Node) : Respelled n n
  | text {n : Node} {value : Offset} {s : String}
    (hnumber : n.payload = some (.number value) ∨ n.payload = some (.pending value))
    (htext : (Payload.literal (.text s)).relativeOffset = value) :
    Respelled n { n with payload := some (.literal (.text s)) }

/-- Another spelling is shifted from the same number. -/
theorem Node.Respelled.relativeOffset_eq {n n' : Node} (h : n.Respelled n') :
    n.relativeOffset = n'.relativeOffset := by
  cases h with
  | same => rfl
  | text hnumber htext =>
    have hoffset :
        ∀ payload, n.payload = some payload → n.relativeOffset = payload.relativeOffset := by
      intro payload hpayload
      rw [relativeOffset, hpayload]
      rfl
    rcases hnumber with hnumber | hnumber
    · exact (hoffset _ hnumber).trans htext.symm
    · exact (hoffset _ hnumber).trans htext.symm

/-- Tells that code is respelled: each node is the same or given another spelling. -/
def Code.Respelled (code code' : Code) : Prop := List.Forall₂ Node.Respelled code.nodes code'.nodes

/-- Respelled code has nodes that are shifted from the same numbers. -/
theorem Code.Respelled.relativeOffsets_eq {code code' : Code} (h : code.Respelled code') :
    code.relativeOffsets = code'.relativeOffsets :=
  map_eq_of_forall₂ h fun _ _ hnode => hnode.relativeOffset_eq

/-- **Numbers as texts.**  A text has the offset that it spells between blanks as its relative
offset, and zero if it spells none; so what is written for a number stands for it.  Where numbers in
code are replaced by texts that stand for them, the storage plan remains the same in all its parts,
or planning fails with the same fault. -/
theorem planStorage_of_respelled :
    (∀ (s : String) (n : Offset), Text.Spells s n.toInt →
      (Payload.literal (.text s)).relativeOffset = n) ∧
    (∀ s : String, (∀ n : Offset, ¬ Text.Spells s n.toInt) →
      (Payload.literal (.text s)).relativeOffset = 0) ∧
    (∀ n : Offset, (Payload.literal (.text (Payload.number n).render)).relativeOffset = n ∧
      (Payload.number n).relativeOffset = n) ∧
    ∀ code code' : Code, code.Respelled code' →
      ∀ (declarations : Declarations) (tables : EntryTables) (base : Offset),
        planStorage declarations tables code base = planStorage declarations tables code' base :=
  ⟨fun _ _ => Payload.relativeOffset_text_of_spells,
    fun _ => Payload.relativeOffset_text_of_not_spells,
    fun n => ⟨Payload.relativeOffset_text_render n, rfl⟩,
    fun _ _ h => planStorage_congr h.relativeOffsets_eq⟩

/-- An element that is listed twice, and a number that only a text in another spelling keeps. -/
def pendingElement : Code :=
  ⟨[{ op := .push, payload := some (.pending 3), width := 1 },
    { op := .stop, payload := some (.number (-5)) }]⟩

/-- The same code with the numbers as texts. -/
def spelledElement : Code :=
  ⟨[{ op := .push, payload := some (.literal (.text "\t+03 ")), width := 1 },
    { op := .stop, payload := some (.literal (.text "-5")) }]⟩

/-- The text is shifted from its number, and shifted again from the number that is planned for
it. -/
theorem planStorage_of_spelledElement :
    pendingElement.Respelled spelledElement ∧
    (Payload.literal (.text "\t+03 ")).relativeOffset = 3 ∧
      (Payload.literal (.text "")).relativeOffset = 0 ∧
    ∃ plan, planStorage (OrderedMap.insert ∅ "a" { kind := .array, size := 2 })
      { arrays := OrderedMap.insert ∅ "a" [0, 1, 0] } spelledElement 10 = .ok plan ∧
      plan.writes.get? 0 = some 23 ∧ plan.writes.get? 1 = some 5 := by
  obtain ⟨hspelled, hunspelled, -, hplan⟩ := planStorage_of_respelled
  have hnumeral : Text.Spells "\t+03 " (3 : Offset).toInt :=
    ⟨['\t'], ['+', '0', '3'], [' '], by decide, List.forall_mem_singleton.mpr (by decide),
      List.forall_mem_singleton.mpr (by decide),
      @Text.IsSigned.plus 10 ['0', '3'] (by decide)⟩
  have hempty : ∀ n : Offset, ¬ Text.Spells "" n.toInt := by
    rintro n ⟨before, numeral, after, hsplit, -, -, h⟩
    obtain ⟨hfront, -⟩ := List.append_eq_nil_iff.mp hsplit.symm
    obtain ⟨-, rfl⟩ := List.append_eq_nil_iff.mp hfront
    generalize n.toInt = z at h
    cases h with
    | plain h => exact h.1 rfl
  have hthree := hspelled _ _ hnumeral
  have hrespelled : pendingElement.Respelled spelledElement :=
    .cons (.text (.inr rfl) hthree) (.cons (.text (.inl rfl) (by decide)) .nil)
  refine ⟨hrespelled, hthree, hunspelled "" hempty, ?_⟩
  rw [← hplan _ _ hrespelled]
  exact ⟨_, rfl, rfl, rfl⟩

end StackLinker
