/-
# Payload writes

A series of payload writes leaves each node with the payload that was last written to it, and with
its own where none was.  All else about the code stays: its skeleton is the code without what a
pass writes, and its outline is all that addresses and jumps read of it.
-/
import StackLinker.Code.Basic
import StackLinker.OrderedMap.Lemmas

namespace StackLinker

/-! ## Skeletons and outlines -/

/-- The node without what a pass writes. -/
def Node.skeleton (n : Node) : Node := { n with payload := none, address := none }

/-- The nodes without what a pass writes. -/
def Code.skeleton (code : Code) : List Node := code.nodes.map Node.skeleton

/-- The node without its payload, its reference and its address: what addresses and jumps depend
on. -/
def Node.outline (n : Node) : Node := { n.skeleton with reference := none }

/-- The nodes without their payloads, references and addresses. -/
def Code.outline (code : Code) : List Node := code.nodes.map Node.outline

/-- Code of one skeleton has one outline. -/
theorem Code.outline_eq_of_skeleton {code code' : Code} (h : code.skeleton = code'.skeleton) :
    code.outline = code'.outline := by
  have hmap := congrArg (List.map fun n => { n with reference := none }) h
  rwa [skeleton, skeleton, List.map_map, List.map_map] at hmap

/-- Code of one outline has one size. -/
theorem Code.size_eq_of_outline {code code' : Code} (h : code.outline = code'.outline) :
    code.size = code'.size := by
  have hlength := congrArg List.length h
  rwa [outline, outline, List.length_map, List.length_map] at hlength

/-- Code of one outline contains the same places. -/
theorem Code.contains_eq_of_outline {code code' : Code} (h : code.outline = code'.outline) :
    code.contains = code'.contains := by
  funext id
  rw [contains, contains, size_eq_of_outline h]

/-- A rewrite of each node that keeps its skeleton keeps the skeleton of the code. -/
theorem Code.skeleton_eq_of_get? {code code' : Code} {f : NodeId → Node → Node}
    (h : ∀ id, code'.get? id = (code.get? id).map (f id))
    (hf : ∀ id n, (f id n).skeleton = n.skeleton) : code'.skeleton = code.skeleton := by
  apply List.ext_getElem?
  intro id
  have hget := h id
  rw [get?, get?] at hget
  rw [skeleton, skeleton, List.getElem?_map, List.getElem?_map, hget, Option.map_map]
  congr 1
  funext n
  exact hf id n

/-- Code of one skeleton has at each place a node of the same skeleton, or none. -/
theorem Code.exists_of_skeleton_eq {code code' : Code} (h : code'.skeleton = code.skeleton)
    {id : NodeId} {n' : Node} (hn' : code'.get? id = some n') :
    ∃ n, code.get? id = some n ∧ n.skeleton = n'.skeleton := by
  have hplace := congrArg (fun nodes => nodes[id]?) h
  simp only [skeleton, List.getElem?_map] at hplace
  rw [get?] at hn'
  rw [hn', Option.map_some] at hplace
  exact Option.map_eq_some_iff.mp hplace.symm

/-! ## Single writes -/

/-- The node with the payload to be written, and with its own if there is none. -/
def Node.overwrite (n : Node) (payload : Option Payload) : Node :=
  { n with payload := payload.or n.payload }

@[simp] theorem Node.overwrite_none (n : Node) : n.overwrite none = n := rfl

/-- Of two payloads for one node the later stays. -/
theorem Node.overwrite_overwrite (n : Node) (first later : Option Payload) :
    (n.overwrite first).overwrite later = n.overwrite (later.or first) := by
  rw [overwrite, overwrite, overwrite, Option.or_assoc]

@[simp] theorem Node.skeleton_overwrite (n : Node) (payload : Option Payload) :
    (n.overwrite payload).skeleton = n.skeleton := rfl

namespace Code

/-- Code is what its nodes are. -/
theorem ext_get? {code code' : Code} (h : ∀ id, code.get? id = code'.get? id) : code = code' := by
  obtain ⟨nodes⟩ := code
  obtain ⟨nodes'⟩ := code'
  exact congrArg Code.mk (List.ext_getElem? h)

/-- A place lies in the code exactly if there is a node at it. -/
theorem contains_iff_get? (code : Code) (id : NodeId) :
    code.contains id = true ↔ ∃ n, code.get? id = some n := by
  rw [contains, decide_eq_true_iff, get?, ← Option.isSome_iff_exists, isSome_getElem?]
  exact Iff.rfl

/-- A place lies outside the code exactly if there is no node at it. -/
theorem contains_eq_false_iff_get? {code : Code} {id : NodeId} :
    code.contains id = false ↔ code.get? id = none := by
  rw [← Bool.not_eq_true, contains_iff_get?, Option.eq_none_iff_forall_ne_some, not_exists]

/-- The enumeration of the code has each node at its place. -/
theorem getElem?_enumerate (code : Code) (place : Nat) :
    code.enumerate[place]? = (code.get? place).map fun n => (place, n) := by
  rw [enumerate, get?, List.getElem?_map, List.getElem?_zipIdx, Option.map_map, Nat.zero_add]
  rfl

/-- The enumeration of the code holds the nodes at their places. -/
theorem mem_enumerate_iff {code : Code} {id : NodeId} {n : Node} :
    (id, n) ∈ code.enumerate ↔ code.get? id = some n := by
  rw [List.mem_iff_getElem?]
  simp [getElem?_enumerate]

/-- The enumeration of the code goes up from place to place. -/
theorem pairwise_enumerate (code : Code) : code.enumerate.Pairwise fun e e' => e.1 < e'.1 := by
  rw [enumerate, List.pairwise_map]
  have hplaces : (code.nodes.zipIdx.map Prod.snd).Pairwise (· < ·) := by
    rw [List.zipIdx_map_snd]
    exact List.pairwise_lt_range'
  exact List.pairwise_map.mp hplaces

/-- A write reaches the node at its place and no other. -/
theorem get?_setPayload (code : Code) (id place : NodeId) (payload : Payload) :
    (code.setPayload id payload).get? place =
      (code.get? place).map fun n => n.overwrite (if place = id then some payload else none) := by
  rw [get?, get?, setPayload, List.getElem?_modify]
  show Option.map _ _ = _
  congr 1
  funext n
  by_cases h : place = id
  · rw [if_pos h.symm, if_pos h]
    rfl
  · rw [if_neg fun hid => h hid.symm, if_neg h, Node.overwrite_none]

/-! ## Series of writes -/

/-- Writes payloads one after the other. -/
def writeAll (code : Code) (writes : List (NodeId × Payload)) : Code :=
  writes.foldl (fun code w => code.setPayload w.1 w.2) code

/-- **Last write wins.**  After a series of writes a node carries the last payload for it. -/
theorem get?_writeAll (code : Code) (writes : List (NodeId × Payload)) (id : NodeId) :
    (code.writeAll writes).get? id =
      (code.get? id).map fun n => n.overwrite (writes.reverse.lookup id) := by
  induction writes generalizing code with
  | nil => simp [writeAll]
  | cons w rest ih =>
    -- The first write is the last one of the reversed list, so any later write hides it.
    obtain ⟨place, payload⟩ := w
    show ((code.setPayload place payload).writeAll rest).get? id = _
    rw [ih, get?_setPayload, Option.map_map, List.reverse_cons, List.lookup_append,
      OrderedMap.lookup_cons_eq_ite, List.lookup_nil]
    congr 1
    funext n
    rw [Function.comp, Node.overwrite_overwrite]

/-- Writing payloads keeps the skeleton. -/
theorem skeleton_writeAll (code : Code) (writes : List (NodeId × Payload)) :
    (code.writeAll writes).skeleton = code.skeleton :=
  skeleton_eq_of_get? (get?_writeAll code writes) fun _ n => n.skeleton_overwrite _

end Code

end StackLinker
