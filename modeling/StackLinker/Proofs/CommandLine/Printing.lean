/-
# What is printed

The text of a listing and of a report, spelled out: which characters stand in a line, and for which
node or variable.  Main statements: a listing has the line of each node, and after a pass a report
has what the pass did and the line of each declared variable, with its reported position.
-/
import StackLinker.Code.Listing
import StackLinker.CommandLine.Report
import StackLinker.Proofs.Program.Resolve

namespace StackLinker

/-- Reading the keys of a map one by one gives its entries, in order. -/
theorem OrderedMap.map_get?_keys {κ ν μ : Type} [DecidableEq κ] (m : OrderedMap κ ν)
    (f : κ → ν → μ) :
    (m.keys.map fun k => (m.get? k).map (f k)) = (m.entries.map fun e => f e.1 e.2).map some := by
  rw [keys, List.map_map, List.map_map]
  apply List.map_congr_left
  intro e he
  rw [Function.comp, Function.comp, mem_entries_iff.mp he, Option.map_some]

namespace CommandLine

/-! ## Cells -/

/-- A text with spaces behind it up to a width. -/
def padded (width : Nat) (text : String) : String :=
  text ++ String.ofList (List.replicate (width - text.length) ' ')

/-- The hexadecimal digits of a number behind `0x`, with zeros in front of them up to a width. -/
def prefixed (width n : Nat) : String :=
  "0x" ++ String.ofList ((Nat.toDigits 16 n).leftpad width '0')

/-- A column is a padded text. -/
theorem column_eq_padded (width : Nat) (text : String) :
    Text.column width text = padded width text := by
  apply String.toList_inj.mp
  rw [Text.column, padded, String.toList_append, String.toList_ofList, String.toList_ofList,
    List.rightpad, String.length_toList]

/-- A decimal number is written as usual. -/
theorem decimal_eq_toString (n : Int) : Text.decimal n = toString n := by
  cases n with
  | ofNat n => rfl
  | negSucc n =>
    show String.ofList (['-'] ++ Nat.toDigits 10 (n + 1)) =
      String.ofList ['-'] ++ String.ofList (Nat.toDigits 10 (n + 1))
    exact String.ofList_append

/-! ## Listings -/

/-- What stands for the address of a node. -/
def addressText : Option Address → String
  | none => "?"
  | some a => toString a.toNat

/-- What stands for the payload of a node. -/
def payloadText : Option Payload → String
  | none => "-"
  | some (.pending x) => "<rel " ++ toString x.toInt ++ ">"
  | some (.literal (.number x)) => toString x.toInt
  | some (.literal (.text s)) => s
  | some (.literal (.address a)) => prefixed 8 a.toNat

/-- The line of a node: its address in three characters or more, its mnemonic in twelve or more, and
its payload behind a colon. -/
def nodeLine (n : Node) : String :=
  padded 3 (addressText n.address) ++ " " ++ padded 12 n.op.mnemonic ++ " : " ++
    payloadText n.payload ++ "\n"

/-- Every payload is rendered as its text. -/
theorem render_eq_payloadText (p : Payload) : p.render = payloadText (some p) := by
  cases p with
  | pending x => rw [Payload.render, payloadText, decimal_eq_toString]
  | literal l =>
    cases l with
    | number x => exact decimal_eq_toString x.toInt
    | text s => rfl
    | address a => rfl

/-- The line of a node is as spelled out. -/
theorem line_eq_nodeLine (n : Node) : n.line = nodeLine n := by
  obtain ⟨op, payload, -, -, -, -, address⟩ := n
  rw [Node.line, nodeLine, ← column_eq_padded, ← column_eq_padded]
  cases payload with
  | none => cases address <;> rfl
  | some p =>
    rw [← render_eq_payloadText]
    cases address <;> rfl

/-- **Listings.**  A listing has the line of each node, in the order of the code. -/
theorem listing_eq_join (code : Code) : code.listing = String.join (code.nodes.map nodeLine) :=
  congrArg String.join (List.map_congr_left fun n _ => line_eq_nodeLine n)

/-! ## Reports -/

/-- The first part of a report: an empty line and what the pass did. -/
def summaryText (options : Options) (summary : Summary) : String :=
  "\n" ++
  "Memory:     " ++ prefixed 4 options.memoryBase.toUInt64.toNat ++ ".." ++
    prefixed 4 summary.memoryStop.toUInt64.toNat ++ "\n" ++
  "Addresses:  " ++ prefixed 4 options.addressBase.toNat ++ ".." ++
    prefixed 4 summary.addressStop.toNat ++ "\n" ++
  "Relocated:  " ++ toString summary.relocated ++ " jump targets\n"

/-- The line of a variable that is reported at a position. -/
def positionLine (name : String) (position : Offset) : String :=
  "  " ++ padded 16 name ++ " " ++ prefixed 4 position.toUInt64.toNat ++ "\n"

/-- The line of a variable is that of its position. -/
theorem variableLine_eq (name : String) (placement : Placement) :
    variableLine name placement = positionLine name placement.position := by
  rw [variableLine, positionLine, column_eq_padded]
  rfl

/-- A report is what the pass did, with the lines of the variables behind it. -/
theorem report_eq (options : Options) (summary : Summary) (layout : Layout) :
    report options summary (some layout) = summaryText options summary ++
      String.join (layout.placements.entries.map fun e => variableLine e.1 e.2) := by
  unfold report summaryText showRange
  simp only [String.append_assoc]
  rfl

/-- **Reports.**  After a pass a report has one line for each declared variable, in the order of
their declaration and with their reported positions. -/
theorem exists_lines_of_resolve {program resolved : Program} {options : Options} {summary : Summary}
    (h : program.resolve options = (.ok summary, resolved)) :
    ∃ lines : List String,
      (program.declarations.keys.map fun name =>
        (resolved.offsetOf? name).map (positionLine name)) = lines.map some ∧
      report options summary resolved.layout =
        summaryText options summary ++ String.join lines := by
  obtain ⟨plan, hsettles⟩ := (Program.pass_of_resolve h).settles
  have hlayout : resolved.layout = some plan.layout := by rw [hsettles.frame]
  have hoffset : ∀ name, (resolved.offsetOf? name).map (positionLine name) =
      (plan.layout.placements.get? name).map (variableLine name) := by
    intro name
    have hline : positionLine name ∘ Placement.position = variableLine name :=
      funext fun placement => (variableLine_eq name placement).symm
    rw [Program.offsetOf?, hlayout, Option.bind_some, Layout.position?, Option.map_map, hline]
  refine ⟨plan.layout.placements.entries.map fun e => variableLine e.1 e.2, ?_, ?_⟩
  · rw [← OrderedMap.map_get?_keys, keys_of_planStorage hsettles.planned]
    exact List.map_congr_left fun name _ => hoffset name
  · rw [hlayout, report_eq]

end CommandLine

end StackLinker
