/-
# Events on a node

Planning storage is, for each node by itself, a series of events: a variable that links to the node
resets its number, and each entry for the node shifts it.  What the plan has for the node is what
these events come to in exact integers, and the plan can be made exactly if no number on the way
leaves the range of offsets.  Which other nodes are written in between does not matter.
-/
import StackLinker.Proofs.Word
import StackLinker.Proofs.Storage.Dependents
import Mathlib.Algebra.Ring.Int.Defs
import Mathlib.Data.List.DropRight

namespace StackLinker

/-! ## Events -/

/-- What a variable does to the number of a node. -/
inductive StorageEvent where
  /-- The number becomes the base of the variable. -/
  | reset (base : Offset)
  /-- The base of the variable is added to the number. -/
  | shift (base : Offset)
  deriving DecidableEq

namespace StorageEvent

/-- The number after an event, in exact integers. -/
def next (number : Int) : StorageEvent → Int
  | reset base => base.toInt
  | shift base => number + base.toInt

/-- The numbers from a start on, after each of some events in order. -/
def numbers (start : Int) (events : List StorageEvent) : List Int := events.scanl next start

/-- Tells whether an event only adds to the number. -/
def isShift : StorageEvent → Bool
  | reset _ => false
  | shift _ => true

/-- The base of the variable of an event. -/
def base : StorageEvent → Offset
  | reset base => base
  | shift base => base

/-- What events come to: the base of the last reset, or the start if there is none, and the bases of
the shifts after it. -/
def total (start : Int) (events : List StorageEvent) : Int :=
  (((events.filter fun e => !e.isShift).getLast?).map fun e => e.base.toInt).getD start +
    ((events.rtakeWhile isShift).map fun e => e.base.toInt).sum

/-- **Last reset and later shifts.**  Events that follow each other come to their total. -/
theorem foldl_next (start : Int) (events : List StorageEvent) :
    events.foldl next start = total start events := by
  induction events using List.reverseRecOn with
  | nil => simp [total]
  | append_singleton before e ih =>
    rw [List.foldl_append, List.foldl_cons, List.foldl_nil, ih]
    cases e with
    | reset base => simp [total, next, isShift, StorageEvent.base]
    | shift base =>
      simp [total, next, isShift, StorageEvent.base, List.rtakeWhile_concat, Int.add_assoc]

/-- Numbers after events one after the other are those after the first, and those after the others
from there on. -/
theorem forall_mem_numbers_append {p : Int → Prop} {start : Int}
    {events later : List StorageEvent} :
    (∀ n ∈ numbers start (events ++ later), p n) ↔
      (∀ n ∈ numbers start events, p n) ∧ ∀ n ∈ numbers (events.foldl next start) later, p n := by
  unfold numbers
  induction events generalizing start with
  | nil =>
    cases later <;> simp +contextual
  | cons e rest ih => simp [ih, and_assoc]

end StorageEvent

/-- What a variable with a base does to a node: one reset if it links to the node, and one shift for
each time that the node is listed for it. -/
def Slot.eventsOn (tables : EntryTables) (name : String) (slot : Slot) (base : Offset)
    (id : NodeId) : List StorageEvent :=
  (if slot.linked = some id then [.reset base] else []) ++
    List.replicate ((slot.listed tables name).count id) (.shift base)

/-- What a variable does to a node with the base that the layout has for it, and nothing if it has
none. -/
def Layout.eventsOf (layout : Layout) (tables : EntryTables) (declared : String × Slot)
    (id : NodeId) : List StorageEvent :=
  ((layout.base? declared.1).map fun base => declared.2.eventsOn tables declared.1 base id).getD []

/-- What variables do to a node, in the order of their declaration. -/
def Layout.eventsOn (layout : Layout) (tables : EntryTables) (declared : List (String × Slot))
    (id : NodeId) : List StorageEvent :=
  declared.flatMap fun e => layout.eventsOf tables e id

/-- What a first variable does comes before what the others do. -/
theorem Layout.eventsOn_cons (layout : Layout) (tables : EntryTables) (e : String × Slot)
    (rest : List (String × Slot)) :
    layout.eventsOn tables (e :: rest) = fun id =>
      layout.eventsOf tables e id ++ layout.eventsOn tables rest id := rfl

/-! ## Plans that carry events out -/

namespace StoragePlan

/-- No event on a node of the code leads from the number of the plan out of the range of offsets. -/
def Admits (code : Code) (events : NodeId → List StorageEvent) (plan : StoragePlan) : Prop :=
  ∀ id n, code.get? id = some n →
    ∀ number ∈ StorageEvent.numbers (plan.relative id n).toInt (events id), Offset.Fits number

/-- The variables are where they were, and the number of each node of the code is what the events on
it have made of it. -/
structure Advances (code : Code) (events : NodeId → List StorageEvent) (plan plan' : StoragePlan) :
    Prop where
  base?_eq : ∀ name, plan'.layout.base? name = plan.layout.base? name
  stop_eq : plan'.layout.stop = plan.layout.stop
  relative_eq : ∀ id n, code.get? id = some n → (plan'.relative id n).toInt =
    (events id).foldl StorageEvent.next (plan.relative id n).toInt

/-- Planning carries events out if the plan admits them, and otherwise finds one of some variables
at fault. -/
inductive CarriesOut (code : Code) (names : List String) (events : NodeId → List StorageEvent)
    (plan : StoragePlan) : Except Fault StoragePlan → Prop
  | ok {plan' : StoragePlan} (admits : plan.Admits code events)
    (advances : plan.Advances code events plan') : CarriesOut code names events plan (.ok plan')
  | error {name : String} (hname : name ∈ names) (h : ¬ plan.Admits code events) :
    CarriesOut code names events plan (.error (.memoryOverflow name))

variable {code : Code} {names : List String} {events later : NodeId → List StorageEvent}
  {plan middle plan' : StoragePlan}

/-- A plan admits that nothing happens. -/
theorem admits_of_nil (h : ∀ id n, code.get? id = some n → events id = []) :
    plan.Admits code events := by
  intro id n hn number hnumber
  rw [h id n hn, StorageEvent.numbers, List.scanl_nil, List.mem_singleton] at hnumber
  exact hnumber ▸ Offset.fits_toInt _

/-- A plan that admits events one after the other admits the first. -/
theorem Admits.left (h : plan.Admits code fun id => events id ++ later id) :
    plan.Admits code events :=
  fun id n hn => (StorageEvent.forall_mem_numbers_append.mp (h id n hn)).1

/-- A plan admits events one after the other exactly if it admits the first, and the plan to which
these lead admits the others. -/
theorem Advances.admits_append_iff (h : plan.Advances code events middle) :
    plan.Admits code (fun id => events id ++ later id) ↔
      plan.Admits code events ∧ middle.Admits code later := by
  unfold Admits
  simp only [StorageEvent.forall_mem_numbers_append]
  constructor
  · intro hadmits
    refine ⟨fun id n hn => (hadmits id n hn).1, fun id n hn => ?_⟩
    rw [h.relative_eq id n hn]
    exact (hadmits id n hn).2
  · rintro ⟨hfirst, hlater⟩ id n hn
    refine ⟨hfirst id n hn, ?_⟩
    rw [← h.relative_eq id n hn]
    exact hlater id n hn

/-- Events are carried out one after the other. -/
theorem Advances.trans (h : plan.Advances code events middle)
    (h' : middle.Advances code later plan') :
    plan.Advances code (fun id => events id ++ later id) plan' := by
  refine ⟨fun name => (h'.base?_eq name).trans (h.base?_eq name), h'.stop_eq.trans h.stop_eq, ?_⟩
  intro id n hn
  rw [h'.relative_eq id n hn, h.relative_eq id n hn, List.foldl_append]

namespace CarriesOut

variable {x : Except Fault StoragePlan}

/-- Parts that carry their events out, one after the other, carry out all of them. -/
theorem bind {f : StoragePlan → Except Fault StoragePlan}
    (h : CarriesOut code names events plan x)
    (hstep : ∀ plan', x = .ok plan' → plan.Advances code events plan' →
      CarriesOut code names later plan' (f plan')) :
    CarriesOut code names (fun id => events id ++ later id) plan (x >>= f) := by
  cases h with
  | error hname hadmits => exact .error hname fun hboth => hadmits hboth.left
  | @ok middle hadmits hadvances =>
    have hrest := hstep middle rfl hadvances
    show CarriesOut code names _ plan (f middle)
    generalize f middle = result at hrest
    cases hrest with
    | ok hadmits' hadvances' =>
      exact .ok (hadvances.admits_append_iff.mpr ⟨hadmits, hadmits'⟩) (hadvances.trans hadvances')
    | error hname hadmits' =>
      exact .error hname fun hboth => hadmits' (hadvances.admits_append_iff.mp hboth).2

/-- Planning succeeds exactly if the plan admits the events. -/
theorem exists_ok_iff (h : CarriesOut code names events plan x) :
    (∃ plan', x = .ok plan') ↔ plan.Admits code events := by
  cases h with
  | ok hadmits _ => exact ⟨fun _ => hadmits, fun _ => ⟨_, rfl⟩⟩
  | error _ hadmits => simpa using hadmits

/-- Planning that succeeds has carried the events out. -/
theorem advances_of_eq_ok (h : CarriesOut code names events plan x) (hx : x = .ok plan') :
    plan.Advances code events plan' := by
  subst hx
  cases h with
  | ok _ hadvances => exact hadvances

/-- Where nothing happens to any node, all is carried out at once. -/
theorem of_nil (hevents : ∀ id n, code.get? id = some n → events id = []) :
    CarriesOut code names events plan (.ok plan) := by
  refine .ok (admits_of_nil hevents) ⟨fun _ => rfl, rfl, ?_⟩
  intro id n hn
  rw [hevents id n hn, List.foldl_nil]

end CarriesOut

/-! ## One event -/

/-- One event on one node. -/
def single (id : NodeId) (event : StorageEvent) (place : NodeId) : List StorageEvent :=
  if place = id then [event] else []

variable {name : String} {base : Offset} {id : NodeId} {n : Node} {event : StorageEvent}

/-- An event on a place outside the code is none on a node of the code. -/
theorem single_eq_nil_of_get? (hid : code.get? id = none) (place : NodeId) (n : Node)
    (hn : code.get? place = some n) : single id event place = [] := by
  refine if_neg ?_
  rintro rfl
  rw [hid] at hn
  cases hn

/-- A plan admits one event exactly if the number that it leads to fits. -/
theorem admits_single_iff (hn : code.get? id = some n) :
    plan.Admits code (single id event) ↔ Offset.Fits (event.next (plan.relative id n).toInt) := by
  constructor
  · intro h
    exact h id n hn _ (by simp [single, StorageEvent.numbers])
  · intro h place m hm
    by_cases hplace : place = id
    · subst hplace
      rw [hn] at hm
      cases hm
      simp [single, StorageEvent.numbers, h, Offset.fits_toInt]
    · simp [single, hplace, StorageEvent.numbers, Offset.fits_toInt]

/-- The number of a node for which one is planned is the planned one, and that of any other node is
what it was. -/
theorem relative_write (plan : StoragePlan) (id : NodeId) (value : Offset) (place : NodeId)
    (n : Node) :
    (plan.write id value).relative place n =
      if place = id then value else plan.relative place n := by
  rw [relative, write, OrderedMap.get?_insert]
  split <;> rfl

/-- Planning the number that an event leads to carries it out. -/
theorem advances_write {value : Offset} (hn : code.get? id = some n)
    (hvalue : value.toInt = event.next (plan.relative id n).toInt) :
    plan.Advances code (single id event) (plan.write id value) := by
  refine ⟨fun _ => rfl, rfl, ?_⟩
  intro place m hm
  rw [relative_write]
  by_cases hplace : place = id
  · subst hplace
    rw [hn] at hm
    cases hm
    simp [single, hvalue]
  · simp [single, hplace]

/-- Reporting a position is no event. -/
theorem Advances.report (h : plan.Advances code events plan') (position : Offset) :
    plan.Advances code events { plan' with layout := plan'.layout.report name position } :=
  ⟨fun name' => (plan'.layout.base?_report name position name').trans (h.base?_eq name'),
    (plan'.layout.stop_report name position).trans h.stop_eq, h.relative_eq⟩

/-- **One entry.**  Shifting an entry is one shift of its node, and nothing if it lies outside the
code. -/
theorem carriesOut_shift (plan : StoragePlan) (reporting : Bool) (id : NodeId)
    (hname : name ∈ names) :
    CarriesOut code names (single id (.shift base)) plan
      (plan.shift code name base reporting id) := by
  rw [StoragePlan.shift]
  cases hn : code.get? id with
  | none => exact .of_nil (single_eq_nil_of_get? hn)
  | some n =>
    have hadmits : plan.Admits code (single id (.shift base)) ↔
        ∃ value, (plan.relative id n).add? base = some value := by
      rw [admits_single_iff hn, StorageEvent.next, Offset.exists_add?_iff]
    cases hvalue : (plan.relative id n).add? base with
    | none =>
      simp only [hvalue]
      refine .error hname ?_
      rw [hadmits, hvalue]
      simp
    | some value =>
      simp only [hvalue]
      refine .ok (hadmits.mpr ⟨value, hvalue⟩) ?_
      have hwrite : plan.Advances code (single id (.shift base)) (plan.write id value) :=
        advances_write hn (Offset.add?_eq_some_iff.mp hvalue)
      cases reporting with
      | false => exact hwrite
      | true => exact hwrite.report value

/-- **The entries of a variable.**  Entries shift each node as often as they name it. -/
theorem carriesOut_foldlM_shift (plan : StoragePlan) (reporting : Bool) (ids : List NodeId)
    (hname : name ∈ names) :
    CarriesOut code names (fun place => List.replicate (ids.count place) (.shift base)) plan
      (ids.foldlM (shift code name base reporting) plan) := by
  induction ids generalizing plan with
  | nil => exact .of_nil fun _ _ _ => rfl
  | cons id rest ih =>
    have hevents :
        (fun place => List.replicate ((id :: rest).count place) (StorageEvent.shift base)) =
          fun place => single id (.shift base) place ++
            List.replicate (rest.count place) (.shift base) := by
      funext place
      by_cases hplace : place = id
      · simp [single, hplace, List.replicate_succ]
      · simp [single, hplace, Ne.symm hplace]
    rw [List.foldlM_cons, hevents]
    exact (carriesOut_shift plan reporting id hname).bind fun middle _ _ => ih middle

/-- **The link of a variable.**  Writing the base to the linked node is one reset of it. -/
theorem carriesOut_writeLinked (plan : StoragePlan) (linked : Option NodeId) :
    CarriesOut code names (fun place => if linked = some place then [.reset base] else []) plan
      (.ok (plan.writeLinked code base linked)) := by
  cases linked with
  | none => exact .of_nil fun _ _ _ => by simp
  | some id =>
    rw [writeLinked]
    have hevents : (fun place => if some id = some place then [StorageEvent.reset base] else []) =
        single id (.reset base) := by
      funext place
      simp only [single, Option.some.injEq, eq_comm]
    rw [hevents]
    cases hn : code.get? id with
    | none =>
      rw [Code.contains_eq_false_iff_get?.mpr hn, if_neg Bool.false_ne_true]
      exact .of_nil (single_eq_nil_of_get? hn)
    | some n =>
      rw [if_pos ((code.contains_iff_get? id).mpr ⟨n, hn⟩)]
      exact .ok ((admits_single_iff hn).mpr (Offset.fits_toInt base)) (advances_write hn rfl)

/-! ## Events of all variables -/

variable {layout : Layout} {tables : EntryTables} {declared : List (String × Slot)} {fault : Fault}

/-- **One variable.**  Visiting a variable carries out what it does to each node. -/
theorem carriesOut_visit {e : String × Slot} (hname : e.1 ∈ names)
    (hlayout : ∀ name, plan.layout.base? name = layout.base? name) :
    CarriesOut code names (layout.eventsOf tables e) plan (visit code tables plan e) := by
  obtain ⟨name, slot⟩ := e
  unfold Layout.eventsOf
  cases hbase : layout.base? name with
  | none =>
    rw [visit_of_unplaced code tables slot ((hlayout name).trans hbase)]
    exact .of_nil fun _ _ _ => rfl
  | some base =>
    rw [visit_of_base? code tables slot ((hlayout name).trans hbase)]
    exact (carriesOut_writeLinked plan slot.linked).bind fun middle _ _ =>
      carriesOut_foldlM_shift middle _ _ hname

/-- **All variables.**  Visiting variables carries out what they do to each node, in order. -/
theorem carriesOut_foldlM_visit (hnames : ∀ e ∈ declared, e.1 ∈ names)
    (hlayout : ∀ name, plan.layout.base? name = layout.base? name) :
    CarriesOut code names (layout.eventsOn tables declared) plan
      (declared.foldlM (visit code tables) plan) := by
  induction declared generalizing plan with
  | nil => exact .of_nil fun _ _ _ => rfl
  | cons e rest ih =>
    rw [List.foldlM_cons, Layout.eventsOn_cons]
    refine (carriesOut_visit (hnames e List.mem_cons_self) hlayout).bind fun middle _ hadvances =>
      ih ?_ ?_
    · exact fun e' he' => hnames e' (List.mem_cons_of_mem e he')
    · exact fun name' => (hadvances.base?_eq name').trans (hlayout name')

/-- **Which variable is at fault.**  Visiting variables finds the first at fault that does to some
node what the plan does not admit. -/
theorem foldlM_visit_eq_error_iff (hlayout : ∀ name, plan.layout.base? name = layout.base? name) :
    declared.foldlM (visit code tables) plan = .error fault ↔
      ∃ place name slot, declared[place]? = some (name, slot) ∧ fault = .memoryOverflow name ∧
        plan.Admits code (layout.eventsOn tables (declared.take place)) ∧
          ¬ plan.Admits code (layout.eventsOn tables (declared.take (place + 1))) := by
  induction declared generalizing plan with
  | nil => simp [pure, Except.pure]
  | cons e rest ih =>
    obtain ⟨name, slot⟩ := e
    have hvisit : CarriesOut code [name] (layout.eventsOf tables (name, slot)) plan
        (visit code tables plan (name, slot)) :=
      carriesOut_visit (List.mem_singleton_self name) hlayout
    rw [List.foldlM_cons]
    generalize visit code tables plan (name, slot) = result at hvisit
    cases hvisit with
    | error hname hadmits =>
      obtain rfl := List.mem_singleton.mp hname
      constructor
      · intro h
        cases h
        exact ⟨0, _, slot, rfl, rfl, admits_of_nil fun _ _ _ => rfl, fun h => hadmits h.left⟩
      · rintro ⟨place, name', slot', hplace, rfl, hearlier, -⟩
        -- No place but the first has none before it that is not admitted.
        cases place with
        | zero =>
          cases hplace
          rfl
        | succ place => exact absurd hearlier.left hadmits
    | @ok middle hadmits hadvances =>
      have hrest : ∀ place, plan.Admits code (layout.eventsOn tables
          (((name, slot) :: rest).take (place + 1))) ↔
            middle.Admits code (layout.eventsOn tables (rest.take place)) := by
        intro place
        rw [List.take_succ_cons, Layout.eventsOn_cons, hadvances.admits_append_iff]
        exact and_iff_right hadmits
      have hmiddle : ∀ name, middle.layout.base? name = layout.base? name :=
        fun name => (hadvances.base?_eq name).trans (hlayout name)
      show rest.foldlM (visit code tables) middle = _ ↔ _
      rw [ih hmiddle]
      constructor
      · rintro ⟨place, name', slot', hplace, rfl, hearlier, hfault⟩
        refine ⟨place + 1, name', slot', hplace, rfl, (hrest place).mpr hearlier, ?_⟩
        rwa [hrest]
      · rintro ⟨place, name', slot', hplace, rfl, hearlier, hfault⟩
        rw [hrest] at hfault
        cases place with
        | zero => exact absurd (admits_of_nil fun _ _ _ => rfl) hfault
        | succ place => exact ⟨place, name', slot', hplace, rfl, (hrest place).mp hearlier, hfault⟩

end StoragePlan

end StackLinker
