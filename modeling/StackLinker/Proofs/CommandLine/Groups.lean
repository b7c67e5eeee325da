/-
# Arguments in groups

Arguments are read from the left in groups: an option with its value, a flag, or the name of a file.
A group is read as the item that it spells, as long as of the names that the groups give only the
last is not empty.  So groups that name a file make the request that their items say, and in another
order they make the same one.
-/
import StackLinker.Proofs.CommandLine.Arguments
import StackLinker.Proofs.Text.Numeral

namespace StackLinker.CommandLine

/-! ## Values of options -/

/-- Tells which number a text spells as the value of an option: one that is not negative, in
decimal, or in hexadecimal behind `0x`, with a sign or without. -/
inductive SpellsValue (text : String) (n : Offset) : Prop
  | decimal (h : Text.IsSigned 10 text.toList n.toInt) (hn : 0 ≤ n.toInt)
  | hexadecimal {x : Char} {digits : List Char} (hx : x = 'x' ∨ x = 'X')
    (htext : text.toList = '0' :: x :: digits) (h : Text.IsSigned 16 digits n.toInt)
    (hn : 0 ≤ n.toInt)

/-- A number that is not negative is read exactly if it is spelled. -/
theorem filter_bind_ofInt?_eq_some_iff {base : Nat} (hbase : base ≤ 16) {cs : List Char}
    {n : Offset} :
    ((Text.integer? base cs).bind Offset.ofInt?).filter (fun n => 0 ≤ n.toInt) = some n ↔
      Text.IsSigned base cs n.toInt ∧ 0 ≤ n.toInt := by
  rw [Option.filter_eq_some_iff, Text.bind_ofInt?_eq_some_iff hbase, decide_eq_true_iff]

/-- No decimal numeral begins with `0x`. -/
theorem not_isSigned_zero_cons {x : Char} (hx : x = 'x' ∨ x = 'X') {digits : List Char} {z : Int} :
    ¬ Text.IsSigned 10 ('0' :: x :: digits) z := by
  intro h
  cases h with
  | plain h =>
    have hdigit := h.2 x (List.mem_cons_of_mem _ List.mem_cons_self)
    rcases hx with rfl | rfl
    · exact absurd hdigit (by decide)
    · exact absurd hdigit (by decide)

/-- The value of an option is the number that it spells. -/
theorem optionValue?_eq_some_iff {text : String} {n : Offset} :
    optionValue? text = some n ↔ SpellsValue text n := by
  have hhexadecimal : ∀ {x : Char} {digits : List Char}, (x = 'x' ∨ x = 'X') →
      text.toList = '0' :: x :: digits →
        (((Text.integer? 16 digits).bind Offset.ofInt?).filter (fun n => 0 ≤ n.toInt) = some n ↔
          SpellsValue text n) := by
    intro x digits hx htext
    rw [filter_bind_ofInt?_eq_some_iff (by decide)]
    constructor
    · rintro ⟨h, hn⟩
      exact .hexadecimal hx htext h hn
    · intro h
      cases h with
      | decimal h => exact absurd (htext ▸ h) (not_isSigned_zero_cons hx)
      | hexadecimal _ htext' h hn =>
        rw [htext] at htext'
        cases htext'
        exact ⟨h, hn⟩
  unfold optionValue?
  split
  · rename_i digits htext
    exact hhexadecimal (.inl rfl) htext
  · rename_i digits htext
    exact hhexadecimal (.inr rfl) htext
  · rename_i hlower hupper
    rw [filter_bind_ofInt?_eq_some_iff (by decide)]
    constructor
    · rintro ⟨h, hn⟩
      exact .decimal h hn
    · intro h
      cases h with
      | decimal h hn => exact ⟨h, hn⟩
      | hexadecimal hx htext =>
        rcases hx with rfl | rfl
        · exact absurd htext (hlower _)
        · exact absurd htext (hupper _)

/-! ## Groups -/

/-- The name that an item gives, be it empty or not. -/
def Item.name? : Item → Option String
  | file name => some name
  | _ => none

/-- Tells that of the names that items give only the last may be one that is not empty. -/
def Item.NamedLast (items : List Item) : Prop :=
  (items.filterMap Item.name?).Pairwise fun name _ => name = ""

instance (items : List Item) : Decidable (Item.NamedLast items) :=
  inferInstanceAs (Decidable (List.Pairwise _ _))

/-- Arguments that belong together, with the item that they spell. -/
structure Group where
  item : Item
  spelling : List String
  spelled : item.Spelled spelling

namespace Group

/-- The arguments of groups, one group after the other. -/
def arguments (groups : List Group) : List String := groups.flatMap spelling

/-- The items of groups. -/
def items (groups : List Group) : List Item := groups.map item

/-- The arguments of one more group come last. -/
theorem arguments_concat (groups : List Group) (group : Group) :
    arguments (groups ++ [group]) = arguments groups ++ group.spelling := by
  rw [arguments, List.flatMap_append, List.flatMap_singleton]
  rfl

/-- The item of one more group comes last. -/
theorem items_concat (groups : List Group) (group : Group) :
    items (groups ++ [group]) = items groups ++ [group.item] :=
  List.map_append

/-- The arguments of groups spell their items. -/
theorem allSpelled (groups : List Group) : Item.AllSpelled (items groups) (arguments groups) := by
  induction groups with
  | nil => exact .nil
  | cons group groups ih => exact .cons group.spelled ih

/-- Tells that no group stands at the beginning of arguments behind other groups. -/
def Stuck (groups : List Group) (arguments : List String) : Prop :=
  arguments ≠ [] ∧ ∀ group rest, arguments = group.spelling ++ rest →
    ¬ Item.NamedLast (items (groups ++ [group]))

/-- Tells that groups are the same in another order, with the bases of each kind in the same
order. -/
structure Reordered (groups groups' : List Group) : Prop where
  perm : groups.Perm groups'
  addressBases :
    (items groups).filterMap Item.addressBase? = (items groups').filterMap Item.addressBase?
  memoryBases :
    (items groups).filterMap Item.memoryBase? = (items groups').filterMap Item.memoryBase?

/-- A group has at least one argument. -/
theorem length_spelling_pos (group : Group) : 0 < group.spelling.length := by
  obtain ⟨item, spelling, hspelled⟩ := group
  cases hspelled <;> exact Nat.succ_pos _

/-- There are at least as many arguments as groups. -/
theorem length_le_length_arguments (groups : List Group) :
    groups.length ≤ (arguments groups).length := by
  induction groups with
  | nil => exact Nat.le_refl _
  | cons group groups ih =>
    have hpos := group.length_spelling_pos
    rw [arguments, List.flatMap_cons, List.length_append, List.length_cons]
    rw [arguments] at ih
    omega

/-- Behind groups there are more groups, up to the end of the arguments or to a place where no group
fits. -/
theorem exists_append_arguments (groups : List Group) (rest : List String)
    (hnamed : Item.NamedLast (items groups)) :
    ∃ groups' rest', arguments groups ++ rest = arguments groups' ++ rest' ∧
      Item.NamedLast (items groups') ∧ (rest' = [] ∨ Stuck groups' rest') := by
  induction hlength : rest.length using Nat.strong_induction_on generalizing groups rest with
  | _ length ih =>
    by_cases hend : rest = []
    · exact ⟨groups, rest, rfl, hnamed, .inl hend⟩
    by_cases hfits : ∃ group rest', rest = group.spelling ++ rest' ∧
        Item.NamedLast (items (groups ++ [group]))
    · obtain ⟨group, rest', rfl, hnamed'⟩ := hfits
      have hpos := group.length_spelling_pos
      rw [List.length_append] at hlength
      obtain ⟨groups', rest'', hsplit, hrest⟩ :=
        ih rest'.length (by omega) (groups ++ [group]) rest' hnamed' rfl
      refine ⟨groups', rest'', ?_, hrest⟩
      rw [← hsplit, arguments_concat, List.append_assoc]
    · refine ⟨groups, rest, rfl, hnamed, .inr ⟨hend, fun group rest' hsplit hnamed' => ?_⟩⟩
      exact hfits ⟨group, rest', hsplit, hnamed'⟩

/-- **Reading ends.**  All arguments are groups, up to their end or to a place where no group fits,
and there are not more groups than arguments. -/
theorem exists_arguments_append (arguments : List String) :
    ∃ groups rest, arguments = Group.arguments groups ++ rest ∧ groups.length ≤ arguments.length ∧
      Item.NamedLast (items groups) ∧ (rest = [] ∨ Stuck groups rest) := by
  obtain ⟨groups, rest, rfl, hend⟩ := exists_append_arguments [] arguments .nil
  refine ⟨groups, rest, rfl, ?_, hend⟩
  rw [List.length_append]
  exact Nat.le_trans (length_le_length_arguments groups) (Nat.le_add_right _ _)

end Group

namespace Item

/-- Items name no file exactly if all their names are empty. -/
theorem filterMap_file?_eq_nil_iff {items : List Item} :
    items.filterMap file? = [] ↔ ∀ name ∈ items.filterMap name?, name = "" := by
  simp only [List.filterMap_eq_nil_iff, List.mem_filterMap]
  constructor
  · rintro h name ⟨item, hitem, hgives⟩
    have hnone := h item hitem
    cases item with
    | file name' =>
      cases hgives
      by_contra hne
      rw [file?, if_neg hne] at hnone
      cases hnone
    | addressBase | memoryBase | skipValidation | verbose => cases hgives
  · intro h item hitem
    cases item with
    | file name => exact if_pos (h name ⟨_, hitem, rfl⟩)
    | addressBase | memoryBase | skipValidation | verbose => rfl

/-- One more item may follow if it is no name, or if there is no name yet that is not empty. -/
theorem NamedLast.concat {items : List Item} (h : NamedLast items) {item : Item}
    (hitem : item.name? = none ∨ items.filterMap file? = []) : NamedLast (items ++ [item]) := by
  rw [NamedLast, List.filterMap_append, List.pairwise_append]
  refine ⟨h, ?_, ?_⟩
  · cases hname : item.name? with
    | none =>
      rw [List.filterMap_cons_none hname]
      exact .nil
    | some name =>
      rw [List.filterMap_cons_some hname]
      exact List.pairwise_singleton _ _
  · intro name hname _ hlast
    rcases hitem with hnone | hempty
    · rw [List.filterMap_cons_none hnone] at hlast
      cases hlast
    · exact filterMap_file?_eq_nil_iff.mp hempty name hname

/-- A name may follow only items that name no file. -/
theorem NamedLast.names_of_concat {items : List Item} {name : String}
    (h : NamedLast (items ++ [.file name])) : items.filterMap file? = [] := by
  rw [NamedLast, List.filterMap_append, List.pairwise_append] at h
  exact filterMap_file?_eq_nil_iff.mpr fun name' hname' =>
    h.2.2 name' hname' name List.mem_cons_self

end Item

/-! ## Reading groups -/

namespace Request

variable {request request' : Request} {items items' : List Item}

/-- The request with what items say, one after the other. -/
def applyAll (request : Request) (items : List Item) : Request := items.foldl apply request

/-- Tells that items name no file once there is one. -/
def Admits (request : Request) (items : List Item) : Prop :=
  (request.file :: items.filterMap Item.name?).Pairwise fun name _ => name = ""

/-- The first request admits items if only the last name is not empty. -/
theorem admits_of_namedLast (h : Item.NamedLast items) : ({} : Request).Admits items :=
  List.pairwise_cons.mpr ⟨fun _ _ => rfl, h⟩

/-- An item is admitted if it names no file or there is none yet, and the others by what it makes of
the request. -/
theorem Admits.of_cons {item : Item} (h : request.Admits (item :: items)) :
    (∀ name, item = .file name → request.file = "") ∧ (request.apply item).Admits items := by
  cases item with
  | file name =>
    obtain ⟨hfile, hrest⟩ := List.pairwise_cons.mp h
    exact ⟨fun _ _ => hfile name List.mem_cons_self, hrest⟩
  | addressBase | memoryBase | skipValidation | verbose => exact ⟨nofun, h⟩

/-- An argument that does not begin like an option is the name of a file. -/
theorem ofText_of_head?_ne {text : String} (h : text.toList.head? ≠ some '-') :
    Argument.ofText text = .file text := by
  have hne : ∀ option : String, option.toList.head? = some '-' → text ≠ option := by
    rintro option hoption rfl
    exact h hoption
  simp only [Argument.ofText, hne "-b" rfl, hne "--base" rfl, hne "-m" rfl, hne "--memory-base" rfl,
    hne "--no-validate" rfl, hne "-v" rfl, hne "--verbose" rfl, hne "-h" rfl, hne "--help" rfl, h,
    or_self, if_false]

/-- **One group.**  A group that is admitted is read as its item. -/
theorem scan_spelled {item : Item} {spelling : List String} (hspelled : item.Spelled spelling)
    (hfile : ∀ name, item = .file name → request.file = "") (rest : List String) :
    scan request (spelling ++ rest) = scan (request.apply item) rest := by
  cases hspelled with
  | addressBase hoption hvalue =>
    rcases hoption with rfl | rfl
    all_goals
      rw [scan.eq_def]
      simp [Argument.ofText, hvalue, apply]
  | memoryBase hoption hvalue =>
    rcases hoption with rfl | rfl
    all_goals
      rw [scan.eq_def]
      simp [Argument.ofText, hvalue, apply]
  | skipValidation =>
    rw [scan.eq_def]
    simp [Argument.ofText, apply]
  | verbose hoption =>
    rcases hoption with rfl | rfl
    all_goals
      rw [scan.eq_def]
      simp [Argument.ofText, apply]
  | file hname =>
    rw [scan.eq_def]
    simp [ofText_of_head?_ne hname, hfile _ rfl, apply]

/-- **Groups.**  Groups that are admitted are read as their items, one after the other. -/
theorem scan_arguments {groups : List Group} (h : request.Admits (Group.items groups))
    (rest : List String) : scan request (Group.arguments groups ++ rest) =
      scan (request.applyAll (Group.items groups)) rest := by
  induction groups generalizing request with
  | nil => rfl
  | cons group groups ih =>
    obtain ⟨hfile, hrest⟩ := Admits.of_cons h
    have hstep := scan_spelled group.spelled hfile (Group.arguments groups ++ rest)
    rw [← List.append_assoc] at hstep
    exact hstep.trans (ih hrest)

/-! ## What groups say -/

/-- A request that still has no file after items had none before, and the items give none. -/
theorem names_of_applyAll_file_eq (h : request.Admits items)
    (hfile : (request.applyAll items).file = "") :
    request.file = "" ∧ items.filterMap Item.file? = [] := by
  induction items generalizing request with
  | nil => exact ⟨hfile, rfl⟩
  | cons item items ih =>
    obtain ⟨hnone, hrest⟩ := Admits.of_cons h
    obtain ⟨hname, hnames⟩ := ih hrest hfile
    cases item with
    | file name =>
      have hempty : name = "" := hname
      have hgives : Item.file? (.file name) = none := if_pos hempty
      exact ⟨hnone name rfl, by rw [List.filterMap_cons_none hgives, hnames]⟩
    | addressBase | memoryBase | skipValidation | verbose => exact ⟨hname, hnames⟩

/-- A request becomes by admitted items what they make of it, if it has a file then. -/
theorem becomes_applyAll (h : request.Admits items) (hfile : (request.applyAll items).file ≠ "") :
    request.Becomes items (request.applyAll items) := by
  induction items generalizing request with
  | nil => exact .refl hfile
  | cons item items ih =>
    obtain ⟨hnone, hrest⟩ := Admits.of_cons h
    exact .cons item (ih hrest hfile) hnone

/-- What items make of the first request is what they say, if they name a file at all. -/
theorem says_applyAll (h : Item.NamedLast items) (hnames : items.filterMap Item.file? ≠ []) :
    (({} : Request).applyAll items).file ≠ "" ∧ (({} : Request).applyAll items).Says items := by
  have hadmits := admits_of_namedLast h
  have hfile : (({} : Request).applyAll items).file ≠ "" := fun hempty =>
    hnames (names_of_applyAll_file_eq hadmits hempty).2
  have hbecomes := becomes_applyAll hadmits hfile
  refine ⟨hfile, hbecomes.file, ?_, ?_, ?_, ?_⟩
  · rw [hbecomes.addressBase, Option.or_none]
  · rw [hbecomes.memoryBase, Option.or_none]
  · simpa using hbecomes.validating
  · simpa using hbecomes.verbose

/-- Items say one request. -/
theorem Says.unique (h : request.Says items) (h' : request'.Says items) : request = request' := by
  have hfile : [request.file] = [request'.file] := h.file.symm.trans h'.file
  have hvalidating : request.validating = request'.validating :=
    Bool.eq_iff_iff.mpr (h.validating.trans h'.validating.symm)
  have hverbose : request.verbose = request'.verbose :=
    Bool.eq_iff_iff.mpr (h.verbose.trans h'.verbose.symm)
  have haddress := h.addressBase.trans h'.addressBase.symm
  have hmemory := h.memoryBase.trans h'.memoryBase.symm
  cases request
  cases request'
  simp only [List.cons.injEq, and_true] at hfile haddress hmemory hvalidating hverbose
  simp only [hfile, haddress, hmemory, hvalidating, hverbose]

/-- Items in another order say the same if the bases of each kind are in the same order. -/
theorem Says.of_perm (h : request.Says items) (hperm : items.Perm items')
    (haddress : items.filterMap Item.addressBase? = items'.filterMap Item.addressBase?)
    (hmemory : items.filterMap Item.memoryBase? = items'.filterMap Item.memoryBase?) :
    request.Says items' where
  file := by
    have hfiles := hperm.filterMap Item.file?
    rw [h.file] at hfiles
    exact List.singleton_perm.mp hfiles |>.symm
  addressBase := haddress ▸ h.addressBase
  memoryBase := hmemory ▸ h.memoryBase
  validating := h.validating.trans (not_congr hperm.mem_iff)
  verbose := h.verbose.trans hperm.mem_iff

/-- If no name is empty, groups in another order name the file in its place. -/
theorem Says.namedLast_of_perm (h : request.Says items)
    (hempty : ∀ item ∈ items, item ≠ .file "") (hperm : items.Perm items') :
    Item.NamedLast items' := by
  have hnames : ∀ item ∈ items, item.name? = item.file? := by
    intro item hitem
    cases item with
    | file name =>
      have hname : name ≠ "" := fun h => hempty _ hitem (congrArg _ h)
      rw [Item.name?, Item.file?, if_neg hname]
    | addressBase | memoryBase | skipValidation | verbose => rfl
  have hfiles := hperm.filterMap Item.name?
  rw [List.filterMap_congr hnames, h.file, List.singleton_perm] at hfiles
  rw [Item.NamedLast, ← hfiles]
  exact List.pairwise_singleton _ _

/-! ## Accepted arguments -/

/-- Arguments make a request exactly if reading them makes it of the first one. -/
theorem ofArguments_eq_ok_iff_scan {arguments : List String} :
    ofArguments arguments = .ok request ↔ scan {} arguments = .ok request := by
  cases arguments with
  | nil => exact ⟨nofun, nofun⟩
  | cons first rest => exact Iff.rfl

/-- Groups that name a file are accepted, and the request is what they say. -/
theorem ofArguments_of_namedLast {groups : List Group}
    (hnamed : Item.NamedLast (Group.items groups))
    (hsaid : request.Says (Group.items groups)) :
    ofArguments (Group.arguments groups) = .ok request := by
  have hnames : (Group.items groups).filterMap Item.file? ≠ [] := by
    rw [hsaid.file]
    exact List.cons_ne_nil _ _
  obtain ⟨hfile, hsaid'⟩ := says_applyAll hnamed hnames
  rw [ofArguments_eq_ok_iff_scan, ← List.append_nil (Group.arguments groups),
    scan_arguments (admits_of_namedLast hnamed), scan, if_neg hfile, hsaid'.unique hsaid]

end Request

end StackLinker.CommandLine
