/-
# Inserting a node

A node that is inserted pushes the nodes behind it one place on, and with them all links that lead
there, so that nothing refers to the new node.  If it is a marker it takes no address units and is
no jump: the units before every other node, the jumps and what they carry stay as they were, and so
does all that the encoder gets, but for the ids.
-/
import StackLinker.Proofs.Code.Emission
import StackLinker.Proofs.Code.Relocation

namespace StackLinker

/-! ## Places -/

/-- The place of a node after another node has been inserted at `place`. -/
def NodeId.past (place id : Nat) : Nat := if id < place then id else id + 1

namespace NodeId

variable {place id : Nat}

theorem past_of_lt (h : id < place) : past place id = id := if_pos h

theorem past_of_le (h : place ≤ id) : past place id = id + 1 := if_neg (Nat.not_lt_of_le h)

/-- Different nodes stay different. -/
theorem past_inj {id' : Nat} (h : past place id = past place id') : id = id' := by
  rcases Nat.lt_or_ge id place with hlt | hle <;> rcases Nat.lt_or_ge id' place with hlt' | hle'
  · rwa [past_of_lt hlt, past_of_lt hlt'] at h
  · rw [past_of_lt hlt, past_of_le hle'] at h
    omega
  · rw [past_of_le hle, past_of_lt hlt'] at h
    omega
  · rw [past_of_le hle, past_of_le hle'] at h
    omega

/-- Every place is that of the new node or of one that was there before. -/
theorem eq_or_exists_past (place id : Nat) : id = place ∨ ∃ old, id = past place old := by
  rcases Nat.lt_trichotomy id place with hlt | rfl | hlt
  · exact .inr ⟨id, (past_of_lt hlt).symm⟩
  · exact .inl rfl
  · refine .inr ⟨id - 1, ?_⟩
    rw [past_of_le (by omega)]
    omega

end NodeId

/-! ## Lists -/

section Lists

variable {α β γ δ : Type} {f : α → β} {x : β} {items : List α} {place : Nat}

/-- The items read through `f`, with `x` inserted at a place. -/
def insertAmong (f : α → β) (place : Nat) (x : β) (items : List α) : List β :=
  (items.take place).map f ++ x :: (items.drop place).map f

/-- The items before the inserted one are as many as its place says. -/
theorem length_map_take (f : α → β) (h : place ≤ items.length) :
    ((items.take place).map f).length = place := by
  rw [List.length_map, List.length_take_of_le h]

/-- In a list with an inserted item an old item is found at its new place. -/
theorem getElem?_past (f : α → β) (x : β) (h : place ≤ items.length) (id : Nat) :
    (insertAmong f place x items)[NodeId.past place id]? = items[id]?.map f := by
  have hlength := length_map_take f h
  rw [insertAmong]
  rcases Nat.lt_or_ge id place with hlt | hle
  · rw [NodeId.past_of_lt hlt, List.getElem?_append_left (by omega), List.getElem?_map,
      List.getElem?_take_of_lt hlt]
  · have hcount : id + 1 - place = id - place + 1 := by omega
    rw [NodeId.past_of_le hle, List.getElem?_append_right (by omega), hlength, hcount,
      List.getElem?_cons_succ, List.getElem?_map, List.getElem?_drop, Nat.add_sub_of_le hle]

/-- In a list with an inserted item this item is found at its place. -/
theorem getElem?_inserted (f : α → β) (x : β) (h : place ≤ items.length) :
    (insertAmong f place x items)[place]? = some x := by
  have hlength := length_map_take f h
  rw [insertAmong, List.getElem?_append_right (by omega), hlength, Nat.sub_self,
    List.getElem?_cons_zero]

/-- What is read off the items one by one, and not off the inserted one, is read off the old
items. -/
theorem filterMap_insertAmong {p : β → Option δ} {q : α → Option γ} {h : γ → δ} (hnew : p x = none)
    (hold : ∀ a, p (f a) = (q a).map h) (place : Nat) (items : List α) :
    (insertAmong f place x items).filterMap p = (items.filterMap q).map h := by
  have hmap : ∀ items : List α, (items.map f).filterMap p = (items.filterMap q).map h := by
    intro items
    rw [List.filterMap_map, List.map_filterMap]
    congr 1
    funext a
    exact hold a
  rw [insertAmong, List.filterMap_append, List.filterMap_cons_none hnew, hmap, hmap,
    ← List.map_append, ← List.filterMap_append, List.take_append_drop]

end Lists

/-! ## Nodes -/

/-- The node with its links moved on as the nodes are to which they lead. -/
def Node.renumber (place : NodeId) (n : Node) : Node :=
  { n with
    target := n.target.map (NodeId.past place)
    carrier := n.carrier.map (NodeId.past place) }

/-- The code with a node inserted at a place, and all links moved on that lead there or further. -/
def Code.insertNode (code : Code) (place : NodeId) (n : Node) : Code :=
  ⟨insertAmong (Node.renumber place) place n code.nodes⟩

/-- Links take no part in the number of units. -/
theorem span_map_renumber (place : NodeId) (nodes : List Node) :
    span (nodes.map (Node.renumber place)) = span nodes := by
  induction nodes with
  | nil => rfl
  | cons n rest ih =>
    rw [List.map_cons, span_cons, span_cons, ih]
    rfl

namespace Code

variable {code : Code} {place : Nat} {marker : Node}

/-- An old node is found at its new place. -/
theorem get?_insertNode (hplace : place ≤ code.size) (marker : Node) (id : NodeId) :
    (code.insertNode place marker).get? (NodeId.past place id) =
      (code.get? id).map (Node.renumber place) :=
  getElem?_past (Node.renumber place) marker hplace id

/-- The new node is found at its place. -/
theorem get?_insertNode_self (hplace : place ≤ code.size) (marker : Node) :
    (code.insertNode place marker).get? place = some marker :=
  getElem?_inserted (Node.renumber place) marker hplace

/-- Links that lead into the code still do, and those that lead outside still do. -/
theorem contains_insertNode (hplace : place ≤ code.size) (marker : Node) (id : NodeId) :
    (code.insertNode place marker).contains (NodeId.past place id) = code.contains id := by
  rw [Bool.eq_iff_iff, contains_iff_get?, contains_iff_get?, get?_insertNode hplace]
  simp

/-- Code that has the old nodes at their new places and a new one at its own is code with this node
inserted. -/
theorem eq_insertNode {code' : Code} (hplace : place ≤ code.size)
    (hmarker : code'.get? place = some marker)
    (hget : ∀ id, code'.get? (NodeId.past place id) = (code.get? id).map (Node.renumber place)) :
    code' = code.insertNode place marker := by
  apply ext_get?
  intro id
  rcases NodeId.eq_or_exists_past place id with rfl | ⟨old, rfl⟩
  · rw [hmarker, get?_insertNode_self hplace]
  · rw [hget, get?_insertNode hplace]

/-! ## Addresses -/

/-- A marker adds no units. -/
theorem span_insertNode (hmarker : marker.op.isMarker = true) :
    span (code.insertNode place marker).nodes = span code.nodes := by
  rw [insertNode, insertAmong, span_append, span_cons, Node.extent_of_isMarker hmarker,
    Nat.zero_add, span_map_renumber, span_map_renumber, ← span_append, List.take_append_drop]

/-- A marker adds no units before any other node. -/
theorem unitsBefore_insertNode (hplace : place ≤ code.size) (hmarker : marker.op.isMarker = true)
    (id : Nat) :
    (code.insertNode place marker).unitsBefore (NodeId.past place id) = code.unitsBefore id := by
  have hlength : ((code.nodes.take place).map (Node.renumber place)).length = place :=
    length_map_take (Node.renumber place) hplace
  rw [unitsBefore, unitsBefore, insertNode, insertAmong]
  rcases Nat.lt_or_ge id place with hlt | hle
  · rw [NodeId.past_of_lt hlt, List.take_append_of_le_length (by omega), ← List.map_take,
      span_map_renumber, List.take_take, Nat.min_eq_left (Nat.le_of_lt hlt)]
  · have hcount : (id + 1 - place : Nat) = id - place + 1 := by omega
    have hsplit : code.nodes.take id =
        code.nodes.take place ++ (code.nodes.drop place).take (id - place) := by
      rw [← List.take_add, Nat.add_sub_of_le hle]
    have hall : ((code.nodes.take place).map (Node.renumber place)).length ≤ (id + 1 : Nat) :=
      Nat.le_trans (Nat.le_of_eq hlength) (Nat.le_succ_of_le hle)
    rw [NodeId.past_of_le hle, List.take_append, hlength, List.take_of_length_le hall, hcount,
      List.take_succ_cons, span_append, span_cons, Node.extent_of_isMarker hmarker, Nat.zero_add,
      ← List.map_take, span_map_renumber, span_map_renumber, hsplit, span_append]

/-! ## Jumps -/

/-- A marker is no jump. -/
theorem isJump_of_isMarker {op : Opcode} (h : op.isMarker = true) : op.isJump = false := by
  cases op <;> first | rfl | cases h

/-- The jumps that ask an old node ask it at its new place, for the new places of their targets. -/
theorem lastTarget?_insertNode (hplace : place ≤ code.size) (hmarker : marker.op.isMarker = true)
    (id : NodeId) :
    (code.insertNode place marker).lastTarget? (NodeId.past place id) =
      (code.lastTarget? id).map (NodeId.past place) := by
  have hnew : (code.insertNode place marker).targetFor? (NodeId.past place id) marker = none := by
    rw [targetFor?, if_neg]
    simp [isJump_of_isMarker hmarker]
  have hold : ∀ n,
      (code.insertNode place marker).targetFor? (NodeId.past place id) (n.renumber place) =
        (code.targetFor? id n).map (NodeId.past place) := by
    intro n
    have hasks : (n.renumber place).carrier = some (NodeId.past place id) ↔
        n.carrier = some id := by
      show n.carrier.map (NodeId.past place) = some (NodeId.past place id) ↔ _
      rw [← Option.map_some, Option.map_inj_right fun _ _ => NodeId.past_inj]
    have htarget : (n.renumber place).target = n.target.map (NodeId.past place) := rfl
    rw [targetFor?, targetFor?]
    by_cases hjump : n.op.isJump = true ∧ n.carrier = some id
    · rw [if_pos hjump, if_pos ⟨hjump.1, hasks.mpr hjump.2⟩, htarget, Option.filter_map]
      congr 2
      funext target
      exact contains_insertNode hplace marker target
    · rw [if_neg hjump, if_neg fun h => hjump ⟨h.1, hasks.mp h.2⟩, Option.map_none]
  rw [lastTarget?, lastTarget?, ← List.getLast?_map]
  exact congrArg List.getLast? (filterMap_insertAmong hnew hold place code.nodes)

/-- The same nodes carry the same destinations. -/
theorem carried?_insertNode (hplace : place ≤ code.size) (hmarker : marker.op.isMarker = true)
    (base : Address) (id : NodeId) :
    (code.insertNode place marker).carried? base (NodeId.past place id) =
      code.carried? base id := by
  rw [carried?, carried?, lastTarget?_insertNode hplace hmarker, Option.map_map]
  congr 1
  funext target
  rw [Function.comp, unitsBefore_insertNode hplace hmarker]

/-- The carriers of jumps are the same nodes. -/
theorem carriers_insertNode (hplace : place ≤ code.size) (hmarker : marker.op.isMarker = true) :
    (code.insertNode place marker).carriers = code.carriers.map (NodeId.past place) := by
  have hnew : (code.insertNode place marker).carrierOf? marker = none := by
    rw [carrierOf?, relocates, isJump_of_isMarker hmarker]
    rfl
  have hold : ∀ n, (code.insertNode place marker).carrierOf? (n.renumber place) =
      (code.carrierOf? n).map (NodeId.past place) := by
    intro n
    have hlinks : ∀ link : Option NodeId,
        (link.map (NodeId.past place)).any (code.insertNode place marker).contains =
          link.any code.contains := by
      intro link
      rw [Option.any_map]
      congr 1
      funext id
      exact contains_insertNode hplace marker id
    have hrelocates : (code.insertNode place marker).relocates (n.renumber place) =
        code.relocates n := by
      rw [relocates, relocates, ← hlinks, ← hlinks n.carrier]
      rfl
    rw [carrierOf?, carrierOf?, hrelocates]
    split <;> rfl
  exact filterMap_insertAmong hnew hold place code.nodes

/-- As many jumps are relocated. -/
theorem countP_relocates_insertNode (hplace : place ≤ code.size)
    (hmarker : marker.op.isMarker = true) :
    (code.insertNode place marker).nodes.countP (code.insertNode place marker).relocates =
      code.nodes.countP code.relocates := by
  rw [← length_carriers, ← length_carriers, carriers_insertNode hplace hmarker, List.length_map]

end Code

/-! ## Emission -/

/-- The emission with the id that its node has after another one has been inserted. -/
def Emission.renumber (place : NodeId) (emission : Emission) : Emission :=
  { emission with id := NodeId.past place emission.id }

/-- The fault with the ids that its nodes have after another one has been inserted. -/
def Fault.renumber (place : NodeId) : Fault → Fault
  | .zeroWidth id => .zeroWidth (NodeId.past place id)
  | .unresolvedPayload id => .unresolvedPayload (NodeId.past place id)
  | .notAddressed id => .notAddressed (NodeId.past place id)
  | .undefinedVariable name id => .undefinedVariable name (NodeId.past place id)
  | .danglingReference id link => .danglingReference (NodeId.past place id) (NodeId.past place link)
  | .danglingEntry name id => .danglingEntry name (NodeId.past place id)
  | fault => fault

/-- An old node is emitted as before, or refused as before, but for its id. -/
theorem Node.emit_renumber (place id : NodeId) (n : Node) :
    (n.renumber place).emit (NodeId.past place id) =
      ((n.emit id).map (Emission.renumber place)).mapError (Fault.renumber place) := by
  have haddress : (n.renumber place).address = n.address := rfl
  have hpayload : (n.renumber place).payload = n.payload := rfl
  rw [emit, emit, haddress, hpayload]
  rcases n.address with _ | address
  · rfl
  · rcases n.payload with _ | (relative | value) <;> rfl

/-- An old node with its id, after another node has been inserted. -/
def Node.renumberEntry (place : NodeId) (e : NodeId × Node) : NodeId × Node :=
  (NodeId.past place e.1, e.2.renumber place)

namespace Code

variable {code : Code} {place : Nat} {marker : Node}

/-- The enumeration of the code with a node inserted has the new node between the old ones, and
these with their new ids. -/
theorem enumerate_insertNode (hplace : place ≤ code.size) (marker : Node) :
    (code.insertNode place marker).enumerate =
      insertAmong (Node.renumberEntry place) place (place, marker) code.enumerate := by
  have hlength : place ≤ code.enumerate.length := by
    rw [enumerate, List.length_map, List.length_zipIdx]
    exact hplace
  apply List.ext_getElem?
  intro id
  rw [getElem?_enumerate]
  rcases NodeId.eq_or_exists_past place id with rfl | ⟨old, rfl⟩
  · rw [get?_insertNode_self hplace, getElem?_inserted _ _ hlength]
    rfl
  · rw [get?_insertNode hplace, getElem?_past _ _ hlength, getElem?_enumerate, Option.map_map,
      Option.map_map]
    rfl

/-- The nodes for the encoder are the old ones. -/
theorem encoded_insertNode (hplace : place ≤ code.size) (hmarker : marker.op.isMarker = true) :
    (code.insertNode place marker).encoded = code.encoded.map (Node.renumberEntry place) := by
  have hnew : Option.guard (fun e : NodeId × Node => e.2.isEncoded) (place, marker) = none := by
    simp [Option.guard, Node.isEncoded, hmarker]
  have hold : ∀ e : NodeId × Node,
      Option.guard (fun e : NodeId × Node => e.2.isEncoded) (Node.renumberEntry place e) =
        (Option.guard (fun e : NodeId × Node => e.2.isEncoded) e).map
          (Node.renumberEntry place) := by
    rintro ⟨id, n⟩
    have hencoded : (n.renumber place).isEncoded = n.isEncoded := rfl
    simp only [Option.guard, Node.renumberEntry, hencoded]
    split <;> rfl
  rw [encoded, encoded, enumerate_insertNode hplace, ← List.filterMap_eq_filter,
    filterMap_insertAmong hnew hold]

/-- **A marker is not emitted.**  What is emitted, and the fault if there is one, is the same but
for the ids. -/
theorem emit_insertNode (hplace : place ≤ code.size) (hmarker : marker.op.isMarker = true) :
    (code.insertNode place marker).emit =
      (code.emit.map (List.map (Emission.renumber place))).mapError (Fault.renumber place) := by
  show (code.insertNode place marker).encoded.mapM _ = _
  rw [encoded_insertNode hplace hmarker]
  exact mapM_map_eq (fun e => Node.emit_renumber place e.1 e.2) code.encoded

end Code

end StackLinker
