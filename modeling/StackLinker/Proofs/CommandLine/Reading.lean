/-
# What arguments are accepted

Main statement: a run loads a file exactly if its arguments are groups up to their end and of the
names that they give the last is the only one that is not empty.  The pass starts at the last base
of each kind, and the order of the groups does not matter but for that of bases of one kind.  Other
arguments are refused at the first place where no group fits, and nothing is loaded.
-/
import StackLinker.Proofs.CommandLine.Groups
import StackLinker.Proofs.CommandLine.Stages

namespace StackLinker.CommandLine

/-! ## Refusals -/

/-- Tells which options take a value, and by which name errors mention them. -/
inductive TakesValue : String → String → Prop
  | addressBase {option : String} (h : option = "-b" ∨ option = "--base") :
    TakesValue option "--base"
  | memoryBase {option : String} (h : option = "-m" ∨ option = "--memory-base") :
    TakesValue option "--memory-base"

/-- The options that there are. -/
def optionNames : List String :=
  ["-b", "--base", "-m", "--memory-base", "--no-validate", "-v", "--verbose", "-h", "--help"]

/-- Tells with which refusal reading stops at arguments behind items: they begin with a call for
help, with what is no option, with an option without a value that it can take, or with a name behind
one that is not empty. -/
inductive Refuses (items : List Item) : List String → Refusal → Prop
  | help {option : String} {rest : List String} (hoption : option = "-h" ∨ option = "--help") :
    Refuses items (option :: rest) .help
  | unknownOption {text : String} {rest : List String} (hdash : text.toList.head? = some '-')
    (hunknown : text ∉ optionNames) : Refuses items (text :: rest) (.unknownOption text)
  | missingValue {option long : String} (hoption : TakesValue option long) :
    Refuses items [option] (.missingValue long)
  | invalidValue {option long text : String} {rest : List String} (hoption : TakesValue option long)
    (hvalue : ∀ n, ¬ SpellsValue text n) :
    Refuses items (option :: text :: rest) (.invalidValue text long)
  | severalFiles {name : String} {rest : List String} (hnamed : items.filterMap Item.file? ≠ [])
    (hname : name.toList.head? ≠ some '-') : Refuses items (name :: rest) .severalFiles

/-- A refusal other than help is an error. -/
theorem Refuses.outcome_eq {items : List Item} {arguments : List String} {refusal : Refusal}
    (h : Refuses items arguments refusal) (hhelp : refusal ≠ .help) (name : String) :
    (refusal.outcome name).exit = 1 ∧
      ∃ message, (refusal.outcome name).stderr = errorLine message := by
  cases h with
  | help => exact absurd rfl hhelp
  | unknownOption | missingValue | invalidValue | severalFiles => exact ⟨rfl, _, rfl⟩

/-- Reading stops where it is refused. -/
theorem Request.scan_of_refuses {request : Request} {items : List Item} {arguments : List String}
    {refusal : Refusal} (h : Refuses items arguments refusal)
    (hfile : items.filterMap Item.file? ≠ [] → request.file ≠ "") :
    scan request arguments = .error refusal := by
  have hinvalid : ∀ text, (∀ n, ¬ SpellsValue text n) → optionValue? text = none := fun text h =>
    Option.eq_none_iff_forall_ne_some.mpr fun n hn => h n (optionValue?_eq_some_iff.mp hn)
  cases h with
  | help hoption =>
    rcases hoption with rfl | rfl
    all_goals
      rw [scan.eq_def]
      simp [Argument.ofText]
  | unknownOption hdash hunknown =>
    rw [scan.eq_def]
    simp only [optionNames, List.mem_cons, List.not_mem_nil, or_false, not_or] at hunknown
    simp [Argument.ofText, hunknown, hdash]
  | missingValue hoption =>
    rcases hoption with (rfl | rfl) | (rfl | rfl)
    all_goals
      rw [scan.eq_def]
      simp [Argument.ofText]
  | invalidValue hoption hvalue =>
    rcases hoption with (rfl | rfl) | (rfl | rfl)
    all_goals
      rw [scan.eq_def]
      simp [Argument.ofText, hinvalid _ hvalue]
  | severalFiles hnamed hname =>
    rw [scan.eq_def]
    simp [ofText_of_head?_ne hname, hfile hnamed]

/-- No group fits at an argument that belongs to no option of a group, if it begins like an option
or there is a file already. -/
theorem Group.stuck_of_notMem {groups : List Group} {first : String} {rest : List String}
    (hoption : first ∉ ["-b", "--base", "-m", "--memory-base", "--no-validate", "-v", "--verbose"])
    (hname : first.toList.head? = some '-' ∨ (items groups).filterMap Item.file? ≠ []) :
    Stuck groups (first :: rest) := by
  simp only [List.mem_cons, List.not_mem_nil, or_false, not_or] at hoption
  refine ⟨List.cons_ne_nil _ _, ?_⟩
  rintro ⟨item, spelling, hspelled⟩ others hsplit hnamed
  cases hspelled with
  | addressBase hfirst | memoryBase hfirst | verbose hfirst =>
    obtain rfl := (List.cons.inj hsplit).1
    simp [hoption] at hfirst
  | skipValidation =>
    obtain rfl := (List.cons.inj hsplit).1
    simp at hoption
  | file hdash =>
    obtain rfl := (List.cons.inj hsplit).1
    rcases hname with hname | hname
    · exact hdash hname
    · rw [items_concat] at hnamed
      exact hname hnamed.names_of_concat

/-- Where no group fits, reading is refused. -/
theorem Group.Stuck.exists_refuses {groups : List Group} {arguments : List String}
    (h : Stuck groups arguments) (hnamed : Item.NamedLast (items groups)) :
    ∃ refusal, Refuses (items groups) arguments refusal := by
  have hfits : ∀ (group : Group) rest, arguments = group.spelling ++ rest →
      ¬ (group.item.name? = none ∨ (items groups).filterMap Item.file? = []) := by
    intro group rest hsplit hgroup
    apply h.2 group rest hsplit
    rw [items_concat]
    exact hnamed.concat hgroup
  obtain _ | ⟨first, rest⟩ := arguments
  · exact absurd rfl h.1
  by_cases hdash : first.toList.head? = some '-'
  · by_cases hknown : first ∈ optionNames
    · have htakes : ∀ long, TakesValue first long →
          ∃ refusal, Refuses (items groups) (first :: rest) refusal := by
        intro long hoption
        obtain _ | ⟨text, rest⟩ := rest
        · exact ⟨_, .missingValue hoption⟩
        by_cases hvalue : ∃ n, SpellsValue text n
        · obtain ⟨n, hn⟩ := hvalue
          rw [← optionValue?_eq_some_iff] at hn
          cases hoption with
          | addressBase hoption =>
            exact absurd (.inl rfl) (hfits ⟨_, _, .addressBase hoption hn⟩ rest rfl)
          | memoryBase hoption =>
            exact absurd (.inl rfl) (hfits ⟨_, _, .memoryBase hoption hn⟩ rest rfl)
        · exact ⟨_, .invalidValue hoption fun n hn => hvalue ⟨n, hn⟩⟩
      simp only [optionNames, List.mem_cons, List.not_mem_nil, or_false] at hknown
      rcases hknown with
        hoption | hoption | hoption | hoption | rfl | hoption | hoption | hoption | hoption
      · exact htakes _ (.addressBase (.inl hoption))
      · exact htakes _ (.addressBase (.inr hoption))
      · exact htakes _ (.memoryBase (.inl hoption))
      · exact htakes _ (.memoryBase (.inr hoption))
      · exact absurd (.inl rfl) (hfits ⟨_, _, .skipValidation⟩ rest rfl)
      · exact absurd (.inl rfl) (hfits ⟨_, _, .verbose (.inl hoption)⟩ rest rfl)
      · exact absurd (.inl rfl) (hfits ⟨_, _, .verbose (.inr hoption)⟩ rest rfl)
      · exact ⟨_, .help (.inl hoption)⟩
      · exact ⟨_, .help (.inr hoption)⟩
    · exact ⟨_, .unknownOption hdash hknown⟩
  · have hgroup := hfits ⟨_, _, .file hdash⟩ rest rfl
    exact ⟨_, .severalFiles (fun hempty => hgroup (.inr hempty)) hdash⟩

/-! ## Runs -/

/-- Arguments that are read as groups up to a refusal are refused. -/
theorem Request.ofArguments_of_refuses {groups : List Group} {rest : List String}
    {refusal : Refusal}
    (hnamed : Item.NamedLast (Group.items groups)) (h : Refuses (Group.items groups) rest refusal) :
    ofArguments (Group.arguments groups ++ rest) = .error refusal := by
  have hscan : scan {} (Group.arguments groups ++ rest) = .error refusal := by
    rw [scan_arguments (admits_of_namedLast hnamed)]
    exact scan_of_refuses h fun hnames => (says_applyAll hnamed hnames).1
  cases harguments : Group.arguments groups ++ rest with
  | nil =>
    obtain ⟨-, rfl⟩ := List.append_eq_nil_iff.mp harguments
    cases h
  | cons first others => rwa [harguments] at hscan

/-- Arguments that are groups without a name that is not empty are refused, with the usage. -/
theorem Request.ofArguments_of_nameless {groups : List Group}
    (hnamed : Item.NamedLast (Group.items groups))
    (hnames : (Group.items groups).filterMap Item.file? = []) :
    ∃ refusal, ofArguments (Group.arguments groups) = .error refusal ∧
      (refusal = .empty ∨ refusal = .noFile) := by
  have hfile : (({} : Request).applyAll (Group.items groups)).file = "" := by
    by_contra hfile
    have hbecomes := becomes_applyAll (admits_of_namedLast hnamed) hfile
    have hnone := hbecomes.file
    rw [hnames] at hnone
    cases hnone
  have hscan : scan {} (Group.arguments groups) = .error .noFile := by
    rw [← List.append_nil (Group.arguments groups),
      scan_arguments (admits_of_namedLast hnamed), scan, if_pos hfile]
  cases harguments : Group.arguments groups with
  | nil => exact ⟨.empty, rfl, .inl rfl⟩
  | cons first others =>
    rw [harguments] at hscan
    exact ⟨.noFile, hscan, .inr rfl⟩

/-- Arguments make a request exactly if they are groups of which the last name is the only one that
is not empty, and the request is what the groups say. -/
theorem Request.ofArguments_eq_ok_iff {arguments : List String} {request : Request} :
    ofArguments arguments = .ok request ↔ ∃ groups, arguments = Group.arguments groups ∧
      Item.NamedLast (Group.items groups) ∧ request.Says (Group.items groups) := by
  constructor
  · intro h
    obtain ⟨groups, rest, rfl, -, hnamed, hend⟩ := Group.exists_arguments_append arguments
    rcases hend with rfl | hstuck
    · rw [List.append_nil] at h ⊢
      refine ⟨groups, rfl, hnamed, ?_⟩
      by_cases hnames : (Group.items groups).filterMap Item.file? = []
      · obtain ⟨refusal, hrefused, -⟩ := ofArguments_of_nameless hnamed hnames
        rw [h] at hrefused
        cases hrefused
      · have hsaid := (says_applyAll hnamed hnames).2
        have haccepted := ofArguments_of_namedLast hnamed hsaid
        rw [h] at haccepted
        rwa [Except.ok.inj haccepted]
    · obtain ⟨refusal, hrefuses⟩ := hstuck.exists_refuses hnamed
      rw [ofArguments_of_refuses hnamed hrefuses] at h
      cases h
  · rintro ⟨groups, rfl, hnamed, hsaid⟩
    exact ofArguments_of_namedLast hnamed hsaid

/-- **Requests.**  The arguments that make a request are items, and the request is what they say. -/
theorem Request.exists_items_of_ofArguments {arguments : List String} {request : Request}
    (h : ofArguments arguments = .ok request) :
    ∃ items, Item.AllSpelled items arguments ∧ request.Says items := by
  obtain ⟨groups, rfl, -, hsaid⟩ := ofArguments_eq_ok_iff.mp h
  exact ⟨_, Group.allSpelled groups, hsaid⟩

/-- The given options with the last base of each kind among items in the place of the given one. -/
def Item.optionsOver (items : List Item) (given : Options) : Options where
  addressBase := (items.filterMap addressBase?).getLast?.getD given.addressBase
  memoryBase := (items.filterMap memoryBase?).getLast?.getD given.memoryBase

/-- A request that says what items do loads a program with the last base of each kind. -/
theorem Request.Says.loads {request : Request} {items : List Item} (h : request.Says items)
    {read : String → Except ReadFailure ByteArray} {parse : String → Except Fault Description}
    {program : Program} {given : Options}
    (hfile : Describes parse (read request.file) program given) :
    request.Loads read parse program (Item.optionsOver items given) :=
  .intro hfile (congrArg (·.getD given.addressBase) h.addressBase.symm)
    (congrArg (·.getD given.memoryBase) h.memoryBase.symm)

/-- **Arguments.**  Values of options are decimal, or hexadecimal behind `0x`, and not negative.
All arguments are groups, up to their end or to a place where no group fits.  They are accepted
exactly if they are groups up to their end and of the names the last is the only one that is not
empty; then the request is what the groups say, and the file is loaded.  If it describes a program,
the run ends as the check and the pass of this program do, from the last base of each kind or else
from that of the description.  If no name is empty, groups in another order give the same run, as
long as the bases of each kind are in the same order.  If no group fits at some place, a call for
help there is answered with the usage, and all else is an error; groups without a name that is not
empty are an error, too. -/
theorem run_reads_groups :
    (∀ text n, optionValue? text = some n ↔ SpellsValue text n) ∧
    (∀ arguments, ∃ groups rest, arguments = Group.arguments groups ++ rest ∧
      groups.length ≤ arguments.length ∧ Item.NamedLast (Group.items groups) ∧
        (rest = [] ∨ Group.Stuck groups rest)) ∧
    (∀ arguments request, Request.ofArguments arguments = .ok request ↔
      ∃ groups, arguments = Group.arguments groups ∧ Item.NamedLast (Group.items groups) ∧
        request.Says (Group.items groups)) ∧
    (∀ arguments request, Request.ofArguments arguments = .ok request → ∀ name read parse,
      run name arguments read parse = request.perform parse (read request.file)) ∧
    (∀ groups (request : Request), Item.NamedLast (Group.items groups) →
      request.Says (Group.items groups) → ∀ name read parse program given,
        Describes parse (read request.file) program given →
          request.Concludes program (Item.optionsOver (Group.items groups) given)
            (run name (Group.arguments groups) read parse)) ∧
    (∀ (request : Request) groups groups', Item.NamedLast (Group.items groups) →
      request.Says (Group.items groups) → (∀ item ∈ Group.items groups, item ≠ .file "") →
        Group.Reordered groups groups' → ∀ name read parse,
          run name (Group.arguments groups) read parse =
            run name (Group.arguments groups') read parse) ∧
    (∀ groups rest, Item.NamedLast (Group.items groups) → Group.Stuck groups rest →
      ∀ name read parse,
        if rest.head? = some "-h" ∨ rest.head? = some "--help"
        then run name (Group.arguments groups ++ rest) read parse =
          { exit := 0, stdout := usage name, stderr := "" }
        else ∃ refusal, Refuses (Group.items groups) rest refusal ∧
          run name (Group.arguments groups ++ rest) read parse = refusal.outcome name ∧
            (refusal.outcome name).exit = 1 ∧
              ∃ message, (refusal.outcome name).stderr = errorLine message) ∧
    ∀ groups, Item.NamedLast (Group.items groups) →
      (Group.items groups).filterMap Item.file? = [] → ∀ name read parse,
        (run name (Group.arguments groups) read parse).exit = 1 ∧
          (run name (Group.arguments groups) read parse).stdout = usage name := by
  have hloads : ∀ arguments request, Request.ofArguments arguments = .ok request →
      ∀ name read parse,
        run name arguments read parse = request.perform parse (read request.file) := by
    intro arguments request h name read parse
    rw [run, h]
  have hrefused : ∀ arguments refusal, Request.ofArguments arguments = .error refusal →
      ∀ name read parse, run name arguments read parse = refusal.outcome name := by
    intro arguments refusal h name read parse
    rw [run, h]
  refine ⟨fun _ _ => optionValue?_eq_some_iff, Group.exists_arguments_append,
    fun _ _ => Request.ofArguments_eq_ok_iff, hloads, ?_, ?_, ?_, ?_⟩
  · intro groups request hnamed hsaid name read parse program given hfile
    rw [hloads _ _ (Request.ofArguments_of_namedLast hnamed hsaid)]
    exact (hsaid.loads hfile).concludes
  · intro request groups groups' hnamed hsaid hempty hreordered name read parse
    have hitems : (Group.items groups).Perm (Group.items groups') := hreordered.perm.map _
    have haccepted := Request.ofArguments_of_namedLast hnamed hsaid
    have haccepted' := Request.ofArguments_of_namedLast (hsaid.namedLast_of_perm hempty hitems)
      (hsaid.of_perm hitems hreordered.addressBases hreordered.memoryBases)
    rw [hloads _ _ haccepted, hloads _ _ haccepted']
  · intro groups rest hnamed hstuck name read parse
    split
    · rename_i hhelp
      obtain ⟨first, others, rfl⟩ := List.exists_cons_of_ne_nil hstuck.1
      rw [List.head?_cons, Option.some_inj, Option.some_inj] at hhelp
      exact hrefused _ _ (Request.ofArguments_of_refuses hnamed (.help hhelp)) name read parse
    · rename_i hhelp
      obtain ⟨refusal, hrefuses⟩ := hstuck.exists_refuses hnamed
      have hrefusal := Request.ofArguments_of_refuses hnamed hrefuses
      refine ⟨refusal, hrefuses, hrefused _ _ hrefusal name read parse, hrefuses.outcome_eq ?_ name⟩
      rintro rfl
      cases hrefuses with
      | help hoption => exact hhelp (hoption.imp (congrArg some) (congrArg some))
  · intro groups hnamed hnames name read parse
    obtain ⟨refusal, hrefusal, hreason⟩ := Request.ofArguments_of_nameless hnamed hnames
    rw [hrefused _ _ hrefusal]
    rcases hreason with rfl | rfl
    · exact ⟨rfl, rfl⟩
    · exact ⟨rfl, rfl⟩

/-- A memory base, in hexadecimal with a sign. -/
def hexadecimalBase : Group :=
  ⟨.memoryBase 16, ["-m", "0x+10"], .memoryBase (.inl rfl) (by decide)⟩

/-- Another memory base. -/
def decimalBase : Group :=
  ⟨.memoryBase 7, ["--memory-base", "7"], .memoryBase (.inr rfl) (by decide)⟩

/-- A file. -/
def fileName : Group := ⟨.file "prog", ["prog"], .file (by decide)⟩

/-- The description of a push that gets the offset of a variable. -/
def linkedDescription : Description where
  options := ⟨4, 5⟩
  declarations := [{ name := "x", kind := .scalar, size := 2, instr := some "p" }]
  instructions := [{ label := some "p", op := "push", width := 1 }]

/-- The program that is described. -/
def linkedPush : Program where
  code := ⟨[{ op := .push, width := 1 }]⟩
  declarations := OrderedMap.insert ∅ "x" { kind := .scalar, size := 2, link := some 0 }

/-- The last of two memory bases counts, wherever the file is named: the push gets neither the first
one nor that of its description.  A second file is an error even before a call for help, and behind
the file such a call is answered. -/
theorem prog_reads_groups :
    (∀ name read parse, run name ["-m", "0x+10", "prog", "--memory-base", "7"] read parse =
      ({ file := "prog", memoryBase := some 7 } : Request).perform parse (read "prog")) ∧
    (∀ name, run name ["-m", "0x+10", "prog", "--memory-base", "7"] (fun _ => .ok "push x".toUTF8)
      (fun _ => .ok linkedDescription) = { exit := 0, stdout := "4   push         : 7\n" }) ∧
    (∀ name read parse, run name ["-m", "0x+10", "prog", "--memory-base", "7"] read parse =
      run name ["prog", "-m", "0x+10", "--memory-base", "7"] read parse) ∧
    (∀ name read parse, (run name ["prog", "b", "-h"] read parse).exit = 1) ∧
    (∀ name read parse, run name ["prog", "--help", "7"] read parse =
      { exit := 0, stdout := usage name }) ∧
    ∀ name read parse, (run name [] read parse).exit = 1 := by
  obtain ⟨-, -, haccepts, hloads, hconcludes, hreorders, hstops, hnameless⟩ := run_reads_groups
  have hnamed : Item.NamedLast (Group.items [hexadecimalBase, fileName, decimalBase]) := by decide
  have hsaid : ({ file := "prog", memoryBase := some 7 } : Request).Says
      (Group.items [hexadecimalBase, fileName, decimalBase]) :=
    ⟨rfl, rfl, rfl, by decide, by decide⟩
  have hreordered : Group.Reordered [hexadecimalBase, fileName, decimalBase]
      [fileName, hexadecimalBase, decimalBase] := ⟨.swap _ _ _, rfl, rfl⟩
  have hsecond : Group.Stuck [fileName] ["b", "-h"] :=
    Group.stuck_of_notMem (by decide) (.inr (by decide))
  have hhelp : Group.Stuck [fileName] ["--help", "7"] :=
    Group.stuck_of_notMem (by decide) (.inl (by decide))
  refine ⟨hloads _ _ ((haccepts _ _).mpr ⟨_, rfl, hnamed, hsaid⟩), ?_,
    hreorders _ _ _ hnamed hsaid (by decide) hreordered, ?_, hstops _ _ (by decide) hhelp,
    fun name read parse => (hnameless [] .nil rfl name read parse).1⟩
  · intro name
    have hfile : Describes (fun _ => .ok linkedDescription) (.ok "push x".toUTF8)
        linkedPush ⟨4, 5⟩ := describes_of_parse rfl rfl
    have hends := hconcludes _ _ hnamed hsaid name (fun _ => .ok "push x".toUTF8) _ _ _ hfile
    have hresolve : (linkedPush.resolve ⟨4, 7⟩).1 = .ok ⟨9, 5, 0⟩ := by decide
    obtain ⟨_, -, hrun⟩ :=
      hends.resolved ⟨9, 5, 0⟩ _ (fun _ => by decide) (Prod.ext hresolve rfl)
    have hline : String.join ((linkedPush.resolve ⟨4, 7⟩).2.code.nodes.map nodeLine) ++ "" =
        "4   push         : 7\n" := by decide +kernel
    exact hrun.trans (congrArg (Outcome.mk 0 · "") hline)
  · intro name read parse
    obtain ⟨refusal, -, houtcome, hexit, -⟩ := hstops _ _ (by decide) hsecond name read parse
    exact (congrArg Outcome.exit houtcome).trans hexit

end StackLinker.CommandLine
