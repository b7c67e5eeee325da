/-
# Reported positions

A variable is reported at its base, unless it is a string that has entries in the code: then it is
reported at the number of the last of them, as it was planned when the string had been visited.
Variables that are visited later may shift that entry again or reset it, and the report stays as it
is.
-/
import StackLinker.Proofs.Storage.Events

namespace StackLinker

/-- The last entry of a string that lies in the code; other variables have none. -/
def Slot.lastEntry? (code : Code) (tables : EntryTables) (name : String) (slot : Slot) :
    Option NodeId :=
  match slot.kind with
  | .string => ((tables.strings.entriesOf name).filter code.contains).getLast?
  | .array | .scalar | .other => none

/-- The last entry of a string lies in the code. -/
theorem Slot.contains_of_lastEntry? {code : Code} {tables : EntryTables} {name : String}
    {slot : Slot}
    {id : NodeId} (h : slot.lastEntry? code tables name = some id) : code.contains id = true := by
  unfold lastEntry? at h
  cases hkind : slot.kind <;> simp only [hkind, reduceCtorEq] at h
  exact (List.mem_filter.mp (List.mem_of_getLast? h)).2

/-- No other variable than a string has a last entry. -/
theorem Slot.lastEntry?_of_ne_string {code : Code} {tables : EntryTables} {name : String}
    {slot : Slot}
    (hkind : slot.kind ≠ .string) : slot.lastEntry? code tables name = none := by
  unfold lastEntry?
  cases hslot : slot.kind with
  | string => exact absurd hslot hkind
  | array | scalar | other => rfl

namespace StoragePlan

/-- Planning has reported a variable at the number of a last entry, if there is one, and has changed
no other report. -/
structure ReportsAt (name : String) (last : Option NodeId) (plan plan' : StoragePlan) : Prop where
  kept : ∀ name', name' ≠ name ∨ last = none →
    plan'.layout.position? name' = plan.layout.position? name'
  reported : ∀ id, last = some id → ∃ value, plan'.writes.get? id = some value ∧
    plan'.layout.position? name = some value

variable {code : Code} {tables : EntryTables} {name : String} {slot : Slot} {base : Offset}
  {plan plan' : StoragePlan}

/-- Of two reports the later stays, if it is one wherever the earlier is. -/
theorem ReportsAt.trans {last last' : Option NodeId} {middle : StoragePlan}
    (h : ReportsAt name last plan middle) (h' : ReportsAt name last' middle plan')
    (hlast : last' = none → last = none) : ReportsAt name last' plan plan' := by
  refine ⟨?_, h'.reported⟩
  intro name' hname'
  rw [h'.kept name' hname', h.kept name' (hname'.imp_right hlast)]

/-- **One entry.**  Shifting an entry of the code reports its number, if there is to be a report. -/
theorem reportsAt_of_shift {reporting : Bool} {id : NodeId}
    (hplaced : plan.layout.base? name = some base)
    (hid : code.contains id = true) (h : plan.shift code name base reporting id = .ok plan') :
    ReportsAt name (if reporting then some id else none) plan plan' := by
  obtain ⟨n, hn⟩ := (code.contains_iff_get? id).mp hid
  simp only [shift, hn] at h
  split at h
  · cases h
  · rename_i value hvalue
    cases h
    cases reporting with
    | false => exact ⟨fun _ _ => rfl, by simp⟩
    | true =>
      constructor
      · rintro name' (hname' | hnone)
        · show (plan.layout.report name value).position? name' = _
          rw [Layout.position?_report hplaced, if_neg hname']
        · cases hnone
      · intro place hplace
        cases hplace
        refine ⟨value, ?_, ?_⟩
        · show (plan.writes.insert id value).get? id = _
          rw [OrderedMap.get?_insert, if_pos rfl]
        · show (plan.layout.report name value).position? name = _
          rw [Layout.position?_report hplaced, if_pos rfl]

/-- **The entries of a variable.**  With reports, the last entry in the code is the one that is
reported. -/
theorem reportsAt_of_foldlM_shift {reporting : Bool} {ids : List NodeId}
    (hbase : plan.layout.base? name = some base)
    (h : ids.foldlM (shift code name base reporting) plan = .ok plan') :
    ReportsAt name
      (if reporting then (ids.filter code.contains).getLast? else none) plan plan' := by
  -- The last entry decides, so the entries are taken from the end.
  induction ids using List.reverseRecOn generalizing plan' with
  | nil =>
    cases h
    exact ⟨fun _ _ => rfl, by simp⟩
  | append_singleton before id ih =>
    rw [List.foldlM_append] at h
    obtain ⟨middle, hmiddle, hlast⟩ := bind_eq_ok_iff.mp h
    obtain ⟨plan'', hshift, hnil⟩ := bind_eq_ok_iff.mp hlast
    cases hnil
    have hbefore := ih hmiddle
    rw [List.filter_append, List.filter_cons, List.filter_nil]
    cases hid : code.contains id with
    | false =>
      simp only [shift, Code.contains_eq_false_iff_get?.mp hid] at hshift
      cases hshift
      rw [if_neg Bool.false_ne_true, List.append_nil]
      exact hbefore
    | true =>
      have hplaced : middle.layout.base? name = some base := by
        rw [← hbase]
        exact ((carriesOut_foldlM_shift plan reporting before
          (List.mem_singleton_self name)).advances_of_eq_ok hmiddle).base?_eq name
      rw [if_pos rfl, List.getLast?_concat]
      refine hbefore.trans (reportsAt_of_shift hplaced hid hshift) ?_
      cases reporting <;> simp

/-- Writing a number to a linked node reports nothing. -/
theorem layout_writeLinked (plan : StoragePlan) (value : Offset) (linked : Option NodeId) :
    (plan.writeLinked code value linked).layout = plan.layout := by
  cases linked with
  | none => rfl
  | some id =>
    rw [writeLinked]
    split <;> rfl

/-- **One variable.**  Visiting a string that has a place reports it at its last entry in the code,
and visiting any other variable reports nothing. -/
theorem reportsAt_of_visit (hbase : plan.layout.base? name = some base)
    (h : visit code tables plan (name, slot) = .ok plan') :
    ReportsAt name (slot.lastEntry? code tables name) plan plan' := by
  have hlink : (plan.writeLinked code base slot.linked).layout = plan.layout :=
    layout_writeLinked plan base slot.linked
  have hlast : slot.lastEntry? code tables name = if decide (slot.kind = .string) = true then
      ((slot.listed tables name).filter code.contains).getLast? else none := by
    rw [Slot.lastEntry?, Slot.listed]
    cases slot.kind <;> rfl
  rw [visit_of_base? code tables slot hbase] at h
  obtain ⟨hkept, hreported⟩ := reportsAt_of_foldlM_shift (hlink ▸ hbase) h
  rw [hlink, ← hlast] at hkept
  rw [← hlast] at hreported
  exact ⟨hkept, hreported⟩

/-- **Other variables.**  Visiting variables keeps what is reported for any that is not among
them. -/
theorem position?_of_foldlM_visit {declared : List (String × Slot)}
    (hname : name ∉ declared.map Prod.fst)
    (h : declared.foldlM (visit code tables) plan = .ok plan') :
    plan'.layout.position? name = plan.layout.position? name := by
  induction declared generalizing plan with
  | nil =>
    cases h
    rfl
  | cons e rest ih =>
    obtain ⟨name', slot⟩ := e
    rw [List.map_cons, List.mem_cons, not_or] at hname
    rw [List.foldlM_cons] at h
    obtain ⟨middle, hmiddle, hrest⟩ := bind_eq_ok_iff.mp h
    rw [ih hname.2 hrest]
    cases hbase : plan.layout.base? name' with
    | none =>
      rw [visit_of_unplaced code tables slot hbase] at hmiddle
      cases hmiddle
      rfl
    | some base => exact (reportsAt_of_visit hbase hmiddle).kept name (.inl hname.1)

/-- **A variable among others.**  What visiting variables has reported for one of them in the end is
what had been reported for it when it had been visited. -/
theorem exists_reports_of_foldlM_visit {before after : List (String × Slot)}
    (hnames : ((before ++ (name, slot) :: after).map Prod.fst).Nodup)
    (hbase : plan.layout.base? name = some base)
    (h : (before ++ (name, slot) :: after).foldlM (visit code tables) plan = .ok plan') :
    ∃ middle, (before ++ [(name, slot)]).foldlM (visit code tables) plan = .ok middle ∧
      plan'.layout.position? name = middle.layout.position? name ∧
      (slot.lastEntry? code tables name = none →
        middle.layout.position? name = plan.layout.position? name) ∧
      ∀ id, slot.lastEntry? code tables name = some id → ∃ value,
        middle.writes.get? id = some value ∧ middle.layout.position? name = some value := by
  rw [List.append_cons, List.foldlM_append] at h
  obtain ⟨middle, hmiddle, hafter⟩ := bind_eq_ok_iff.mp h
  rw [List.map_append, List.map_cons, List.nodup_append, List.nodup_cons] at hnames
  have hbefore : name ∉ before.map Prod.fst :=
    fun hmem => hnames.2.2 name hmem name List.mem_cons_self rfl
  refine ⟨middle, hmiddle, position?_of_foldlM_visit hnames.2.1.1 hafter, ?_⟩
  rw [List.foldlM_append] at hmiddle
  obtain ⟨earlier, hearlier, hlast⟩ := bind_eq_ok_iff.mp hmiddle
  obtain ⟨middle', hvisit, hnil⟩ := bind_eq_ok_iff.mp hlast
  cases hnil
  have hcarries : CarriesOut code (before.map Prod.fst) (plan.layout.eventsOn tables before) plan
      (before.foldlM (visit code tables) plan) :=
    carriesOut_foldlM_visit (fun e he => List.mem_map_of_mem he) (fun _ => rfl)
  have hplaced := (hcarries.advances_of_eq_ok hearlier).base?_eq name
  have hreports := reportsAt_of_visit (hplaced.trans hbase) hvisit
  refine ⟨fun hnone => ?_, hreports.reported⟩
  rw [hreports.kept name (.inr hnone), position?_of_foldlM_visit hbefore hearlier]

end StoragePlan

end StackLinker
