/-
# What a listing tells

The cells of a row hold no separators and say what they were made from: an address or that there is
none, an operation, and a payload or that there is none, as long as it is no text, which may look
like anything.  Main statement: but for texts, a listing has one line for each node and tells all
that it shows of the node.
-/
import StackLinker.Code.Listing
import StackLinker.Proofs.JumpAddress.Codec
import StackLinker.Proofs.Literal
import StackLinker.Proofs.Pairing
import StackLinker.Proofs.Text.Column
import Mathlib.Data.Bool.AllAny

namespace StackLinker

/-! ## Addresses and operations -/

/-- The cell of an address that may be missing. -/
def addressCell : Option Address → String
  | some a => Text.decimal a.toNat
  | none => "?"

/-- The address that a cell shows.  A question mark is no number and shows that there is none. -/
def addressOfCell (cs : List Char) : Option Address :=
  (Text.integer? 10 cs).map fun z => UInt64.ofNat z.toNat

/-- The cell of an address shows it. -/
theorem addressOfCell_addressCell (address : Option Address) :
    addressOfCell (addressCell address).toList = address := by
  cases address with
  | none => rfl
  | some a =>
    have hread := (Text.integer?_eq_some_iff (by decide)).mpr (Text.isSigned_decimalDigits a.toNat)
    rw [addressCell, Text.toList_decimal, addressOfCell, hread, Option.map_some, Int.toNat_natCast,
      UInt64.ofNat_toNat]

/-- There is no blank in the cell of an address. -/
theorem isBlank_addressCell (address : Option Address) :
    ∀ c ∈ (addressCell address).toList, Text.isBlank c = false := by
  cases address with
  | none => exact List.all_iff_forall_prop.mp (by decide)
  | some a =>
    rw [addressCell, Text.toList_decimal]
    exact (Text.isSigned_decimalDigits a.toNat).isBlank_eq_false

/-- Different operations have different mnemonics. -/
theorem Opcode.mnemonic_injective : Function.Injective mnemonic := by
  intro op op' h
  have hread := congrArg ofMnemonic? h
  rw [ofMnemonic?_mnemonic, ofMnemonic?_mnemonic] at hread
  exact Option.some.inj hread

/-- There is no blank in a mnemonic. -/
theorem Opcode.isBlank_mnemonic (op : Opcode) :
    ∀ c ∈ op.mnemonic.toList, Text.isBlank c = false := by
  have hall :
      (all.all fun op => op.mnemonic.toList.all fun c => Text.isBlank c = false) = true := by
    decide +kernel
  exact List.all_iff_forall_prop.mp (List.all_eq_true.mp hall op op.mem_all)

/-! ## Payloads -/

/-- Tells that the payload of a node is no text. -/
def Node.Textless (n : Node) : Prop := ∀ s, n.payload ≠ some (.literal (.text s))

instance (n : Node) : Decidable n.Textless :=
  match hpayload : n.payload with
  | some (.literal (.text s)) => .isFalse fun h => h s hpayload
  | none | some (.pending _) | some (.literal (.number _)) | some (.literal (.address _)) =>
    .isTrue fun _ h => nomatch hpayload.symm.trans h

/-- A pending offset is shown between `<rel` and `>`. -/
theorem Payload.toList_render_pending (value : Offset) : (pending value).render.toList =
    '<' :: 'r' :: 'e' :: 'l' :: ' ' :: (Text.decimalDigits value.toInt ++ ['>']) := by
  simp [render, Text.toList_decimal]

/-- A number is shown in decimal. -/
theorem Payload.toList_render_number (value : Offset) :
    (literal (.number value)).render.toList = Text.decimalDigits value.toInt :=
  Text.toList_decimal value.toInt

/-- An address is shown as hexadecimal digits behind `0x`, and these have its value. -/
theorem Payload.exists_digits_render_address (value : JumpAddress) : ∃ digits,
    (literal (.address value)).render.toList = '0' :: 'x' :: digits ∧
      (∀ c ∈ digits, c ∈ Text.digitChars) ∧ Text.positional 16 digits = value.toNat := by
  obtain ⟨digits, hdigits, -, hsmall, hvalue⟩ :=
    Text.exists_hexadecimal_digits (by decide) value.toNat_lt
  exact ⟨digits, by simp [render, Literal.render, JumpAddress.render, hdigits], hsmall, hvalue⟩

/-- The cell of a payload that may be missing. -/
def payloadCell : Option Payload → String
  | some p => p.render
  | none => "-"

/-- The payload that a cell shows.  What begins neither like a pending offset nor like an address is
read as a number, and a dash is none. -/
def payloadOfCell : List Char → Option Payload
  | '<' :: 'r' :: 'e' :: 'l' :: ' ' :: rest => (Literal.offset? rest.dropLast).map .pending
  | '0' :: 'x' :: digits => some (.address (.ofNat (Text.positional 16 digits)))
  | cs => (Literal.offset? cs).map .number

/-- A number that is written in decimal is read as a number. -/
theorem payloadOfCell_decimalDigits (n : Offset) :
    payloadOfCell (Text.decimalDigits n.toInt) = some (.number n) := by
  have hchars := (Text.isSigned_decimalDigits n.toInt).digit_or_sign
  unfold payloadOfCell
  split
  · rename_i hcell
    exact absurd (hchars '<' (by simp [hcell])) (by decide)
  · rename_i hcell
    exact absurd (hchars 'x' (by simp [hcell])) (by decide)
  · rw [Literal.offset?_decimalDigits, Option.map_some]

/-- The cell of a payload shows it, unless it is a text. -/
theorem payloadOfCell_payloadCell {n : Node} (h : n.Textless) :
    payloadOfCell (payloadCell n.payload).toList = n.payload := by
  cases hpayload : n.payload with
  | none => rfl
  | some payload =>
    rw [payloadCell]
    cases payload with
    | pending value =>
      rw [Payload.toList_render_pending, payloadOfCell, List.dropLast_concat,
        Literal.offset?_decimalDigits, Option.map_some]
    | literal value =>
      cases value with
      | number value =>
        rw [Payload.toList_render_number, payloadOfCell_decimalDigits, Payload.number]
      | text s => exact absurd hpayload (h s)
      | address value =>
        obtain ⟨digits, hcell, -, hvalue⟩ := Payload.exists_digits_render_address value
        rw [hcell, payloadOfCell, hvalue, value.ofNat_toNat, Payload.address]

/-- There is no other blank in the cell of a payload than spaces, unless it is a text. -/
theorem eq_space_or_isBlank_payloadCell {n : Node} (h : n.Textless) :
    ∀ c ∈ (payloadCell n.payload).toList, c = ' ' ∨ Text.isBlank c = false := by
  have hdecimal : ∀ value : Offset, ∀ c ∈ Text.decimalDigits value.toInt,
      c = ' ' ∨ Text.isBlank c = false := fun value c hc =>
    .inr ((Text.isSigned_decimalDigits value.toInt).isBlank_eq_false c hc)
  -- Each list of characters is tested on its own; the test must not go through all characters.
  have hhexadecimal : ∀ c ∈ Text.digitChars, c = ' ' ∨ Text.isBlank c = false :=
    List.all_iff_forall_prop.mp (by decide)
  cases hpayload : n.payload with
  | none => exact List.all_iff_forall_prop.mp (by decide)
  | some payload =>
    rw [payloadCell]
    cases payload with
    | pending value =>
      rw [Payload.toList_render_pending]
      show ∀ c ∈ ['<', 'r', 'e', 'l', ' '] ++ (Text.decimalDigits value.toInt ++ ['>']), _
      rw [List.forall_mem_append, List.forall_mem_append]
      exact ⟨List.all_iff_forall_prop.mp (by decide), hdecimal value,
        List.all_iff_forall_prop.mp (by decide)⟩
    | literal value =>
      cases value with
      | number value =>
        rw [Payload.toList_render_number]
        exact hdecimal value
      | text s => exact absurd hpayload (h s)
      | address value =>
        obtain ⟨digits, hcell, hsmall, -⟩ := Payload.exists_digits_render_address value
        rw [hcell, List.forall_mem_cons, List.forall_mem_cons]
        exact ⟨.inr rfl, .inr rfl, fun c hc => hhexadecimal c (hsmall c hc)⟩

/-! ## Rows -/

/-- The row of a node: its line without the line end. -/
def Node.row (n : Node) : String :=
  Text.column 3 (addressCell n.address) ++ " " ++ Text.column 12 n.op.mnemonic ++ " : " ++
    payloadCell n.payload

/-- A line is a row and a line end. -/
theorem Node.line_eq (n : Node) : n.line = n.row ++ "\n" := by
  obtain ⟨op, payload, -, -, -, -, address⟩ := n
  cases payload <;> cases address <;> rfl

/-- A listing is made of rows and line ends. -/
theorem Code.listing_eq (code : Code) :
    code.listing = String.join ((code.nodes.map Node.row).map (· ++ "\n")) := by
  rw [listing, List.map_map]
  exact congrArg _ (List.map_congr_left fun n _ => n.line_eq)

/-- The characters of a row: two columns with a space behind each, and a payload behind a colon. -/
theorem Node.toList_row (n : Node) : n.row.toList =
    (Text.column 3 (addressCell n.address)).toList ++
      ' ' :: ((Text.column 12 n.op.mnemonic).toList ++
        ' ' :: ':' :: ' ' :: (payloadCell n.payload).toList) := by
  simp [row]

/-- Tells that two nodes have the same address, operation and payload, which is what a row shows. -/
structure Node.LooksLike (n n' : Node) : Prop where
  address : n.address = n'.address
  op : n.op = n'.op
  payload : n.payload = n'.payload

/-- A text without blanks has no spaces. -/
theorem notMem_of_isBlank {s : String} (h : ∀ c ∈ s.toList, Text.isBlank c = false) :
    ' ' ∉ s.toList :=
  fun hmem => absurd (h ' ' hmem) (by decide)

/-- Rows are the same exactly if they show the same. -/
theorem Node.row_eq_iff {n n' : Node} (h : n.Textless) (h' : n'.Textless) :
    n.row = n'.row ↔ n.LooksLike n' := by
  constructor
  · intro hrow
    -- The cells come off from the left; only the last of them, the payload, may hold spaces.
    have hchars := congrArg String.toList hrow
    rw [toList_row, toList_row] at hchars
    obtain ⟨haddress, hchars⟩ := Text.column_append_inj (notMem_of_isBlank (isBlank_addressCell _))
      (notMem_of_isBlank (isBlank_addressCell _)) hchars
    obtain ⟨hmnemonic, hchars⟩ := Text.column_append_inj
      (notMem_of_isBlank (Opcode.isBlank_mnemonic _))
      (notMem_of_isBlank (Opcode.isBlank_mnemonic _)) hchars
    have hpayload := (List.cons.inj (List.cons.inj hchars).2).2
    refine ⟨?_, Opcode.mnemonic_injective hmnemonic, ?_⟩
    · rw [← addressOfCell_addressCell n.address, haddress, addressOfCell_addressCell]
    · rw [← payloadOfCell_payloadCell h, hpayload, payloadOfCell_payloadCell h']
  · intro hlook
    rw [row, row, hlook.address, hlook.op, hlook.payload]

/-- There is no other blank in a row than spaces. -/
theorem Node.eq_space_or_isBlank_row {n : Node} (h : n.Textless) :
    ∀ c ∈ n.row.toList, c = ' ' ∨ Text.isBlank c = false := by
  have hcolumn : ∀ width s, (∀ c ∈ s.toList, Text.isBlank c = false) →
      ∀ c ∈ (Text.column width s).toList, c = ' ' ∨ Text.isBlank c = false := by
    intro width s hs c hc
    exact (Text.mem_column hc).symm.imp_right (hs c)
  rw [toList_row, List.forall_mem_append, List.forall_mem_cons, List.forall_mem_append,
    List.forall_mem_cons, List.forall_mem_cons, List.forall_mem_cons]
  exact ⟨hcolumn 3 _ (isBlank_addressCell n.address), .inl rfl,
    hcolumn 12 _ n.op.isBlank_mnemonic, .inl rfl, .inr rfl, .inl rfl,
    eq_space_or_isBlank_payloadCell h⟩

/-! ## Listings -/

/-- Tells that no node of the code carries a text. -/
def Code.Textless (code : Code) : Prop := ∀ n ∈ code.nodes, n.Textless

instance (code : Code) : Decidable code.Textless :=
  inferInstanceAs (Decidable (∀ n ∈ code.nodes, n.Textless))

/-- A listing has one line for each node, and that is its row. -/
theorem Code.lines_listing {code : Code} (h : code.Textless) :
    Text.lines code.listing = code.nodes.map Node.row := by
  rw [listing_eq]
  apply Text.lines_join
  intro row hrow hend
  obtain ⟨n, hn, rfl⟩ := List.mem_map.mp hrow
  exact absurd (Node.eq_space_or_isBlank_row (h n hn) _ hend) (by decide)

/-- Nodes have the same rows exactly if they show the same, one after the other. -/
theorem map_row_eq_iff {nodes nodes' : List Node} (h : ∀ n ∈ nodes, n.Textless)
    (h' : ∀ n ∈ nodes', n.Textless) :
    nodes.map Node.row = nodes'.map Node.row ↔ List.Forall₂ Node.LooksLike nodes nodes' := by
  induction nodes generalizing nodes' with
  | nil => cases nodes' <;> simp
  | cons n rest ih =>
    cases nodes' with
    | nil => simp
    | cons n' rest' =>
      obtain ⟨hn, hrest⟩ := List.forall_mem_cons.mp h
      obtain ⟨hn', hrest'⟩ := List.forall_mem_cons.mp h'
      rw [List.map_cons, List.map_cons, List.cons.injEq, List.forall₂_cons, Node.row_eq_iff hn hn',
        ih hrest hrest']

/-- **Listings.**  Two listings without texts are the same exactly if their codes have as many nodes
and these have, one after the other, the same address or none, the same operation and the same
payload or none.  Such a listing has one line for each node, its row. -/
theorem Code.listing_tells :
    (∀ code code' : Code, code.Textless → code'.Textless →
      (code.listing = code'.listing ↔ List.Forall₂ Node.LooksLike code.nodes code'.nodes)) ∧
    ∀ code : Code, code.Textless →
      Text.lines code.listing = code.nodes.map Node.row ∧
        (Text.lines code.listing).length = code.size := by
  refine ⟨fun code code' h h' => ?_, fun code h => ⟨lines_listing h, ?_⟩⟩
  · rw [← map_row_eq_iff h h']
    constructor
    · intro hlisting
      rw [← lines_listing h, ← lines_listing h', hlisting]
    · intro hrows
      rw [listing_eq, listing_eq, hrows]
  · rw [lines_listing h, List.length_map, size]

/-- Code with a negative number, a missing payload, a missing address, and addresses that are wider
than their column. -/
def crowdedCode : Code where
  nodes :=
    [{ op := .push, payload := some (.number (-1)), width := 2, address := some 1000 },
      { op := .calldataload, address := some 1002 },
      { op := .push, payload := some (.address ⟨0, 0, 0, 16⟩), width := 4 },
      { op := .jump, payload := some (.pending 16), address := some 18446744073709551615 }]

/-- The crowded code looks the same with another link and another width, but not with the number 16
where the address 16 was. -/
theorem crowdedCode_tells :
    let relinked := crowdedCode.set 2
      { op := .push, payload := some (.address ⟨0, 0, 0, 16⟩), width := 1, target := some 0 }
    let renumbered := crowdedCode.set 2 { op := .push, payload := some (.number 16), width := 4 }
    crowdedCode.Textless ∧ relinked.Textless ∧ renumbered.Textless ∧
      crowdedCode.listing = relinked.listing ∧ crowdedCode.listing ≠ renumbered.listing ∧
      Text.lines crowdedCode.listing =
        ["1000 push         : -1", "1002 calldataload : -", "?   push         : 0x00000010",
          "18446744073709551615 jump         : <rel 16>"] := by
  intro relinked renumbered
  have hcrowded : crowdedCode.Textless := by decide
  have hrelinked : relinked.Textless := by decide
  have hrenumbered : renumbered.Textless := by decide
  obtain ⟨hsame, hlines⟩ := Code.listing_tells
  refine ⟨hcrowded, hrelinked, hrenumbered, ?_, ?_, ?_⟩
  · rw [hsame crowdedCode relinked hcrowded hrelinked]
    exact .cons ⟨rfl, rfl, rfl⟩ (.cons ⟨rfl, rfl, rfl⟩ (.cons ⟨rfl, rfl, rfl⟩
      (.cons ⟨rfl, rfl, rfl⟩ .nil)))
  · rw [Ne, hsame crowdedCode renumbered hcrowded hrenumbered]
    intro hlook
    obtain ⟨n', hn', hsecond⟩ := exists_partner hlook (show crowdedCode.nodes[2]? = some _ from rfl)
    cases hn'
    cases hsecond.payload
  · rw [(hlines crowdedCode hcrowded).1]
    decide +kernel

end StackLinker
