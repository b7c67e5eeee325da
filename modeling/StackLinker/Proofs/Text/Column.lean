/-
# Columns and lines

A text is cut in one way where a separator stands that does not occur before.  So texts without
blanks are found again in the columns that they fill, whatever their length, and rows without line
ends are the lines of the text that they make.
-/
import StackLinker.Text.Column

namespace StackLinker.Text

/-! ## Columns -/

/-- Texts with a separator are the same only if they are the same before it and behind it. -/
theorem append_cons_inj {separator : Char} {front front' rest rest' : List Char}
    (hfront : separator ∉ front) (hfront' : separator ∉ front')
    (h : front ++ separator :: rest = front' ++ separator :: rest') :
    front = front' ∧ rest = rest' := by
  have hpieces := congrArg (List.splitOn separator) h
  rw [List.splitOn_append_cons_self_of_not_mem hfront,
    List.splitOn_append_cons_self_of_not_mem hfront'] at hpieces
  obtain rfl := (List.cons.inj hpieces).1
  exact ⟨rfl, (List.cons.inj (List.append_cancel_left h)).2⟩

/-- In a column a text has blanks behind it and nothing else. -/
theorem mem_column {width : Nat} {s : String} {c : Char} (hc : c ∈ (column width s).toList) :
    c ∈ s.toList ∨ c = ' ' := by
  rw [column, String.toList_ofList, List.rightpad] at hc
  exact (List.mem_append.mp hc).imp_right List.eq_of_mem_replicate

/-- A column of any width and a blank behind it begin with the text and a blank. -/
theorem column_append_cons (width : Nat) (s : String) (rest : List Char) :
    (column width s).toList ++ ' ' :: rest =
      s.toList ++ ' ' :: (List.replicate (width - s.toList.length) ' ' ++ rest) := by
  rw [column, String.toList_ofList, List.rightpad, List.append_assoc, ← List.cons_append,
    ← List.replicate_succ, List.replicate_succ', List.append_assoc, List.singleton_append]

/-- Texts without blanks are told apart in a column, and what is behind the column as well. -/
theorem column_append_inj {width : Nat} {s s' : String} {rest rest' : List Char}
    (hs : ' ' ∉ s.toList) (hs' : ' ' ∉ s'.toList)
    (h : (column width s).toList ++ ' ' :: rest = (column width s').toList ++ ' ' :: rest') :
    s = s' ∧ rest = rest' := by
  rw [column_append_cons, column_append_cons] at h
  obtain ⟨htext, hrest⟩ := append_cons_inj hs hs' h
  obtain rfl := String.toList_inj.mp htext
  exact ⟨rfl, List.append_cancel_left hrest⟩

/-! ## Lines -/

/-- The lines of a text.  A line end closes a line and is not part of it; what stands behind the
last line end is a line if it is not empty. -/
def lines (s : String) : List String :=
  let pieces := s.toList.splitOn '\n'
  (if pieces.getLast? = some [] then pieces.dropLast else pieces).map String.ofList

/-- Rows that are closed by line ends are cut at these. -/
theorem splitOn_join {rows : List String} (h : ∀ row ∈ rows, '\n' ∉ row.toList) :
    (String.join (rows.map (· ++ "\n"))).toList.splitOn '\n' = rows.map String.toList ++ [[]] := by
  rw [String.toList_join, List.flatMap_map]
  induction rows with
  | nil => rfl
  | cons row rest ih =>
    obtain ⟨hrow, hrest⟩ := List.forall_mem_cons.mp h
    have hend : "\n".toList = ['\n'] := rfl
    rw [List.flatMap_cons, String.toList_append, hend, List.append_assoc, List.singleton_append,
      List.splitOn_append_cons_self_of_not_mem hrow, ih hrest, List.map_cons, List.cons_append]

/-- Rows that are closed by line ends are the lines of the text that they make. -/
theorem lines_join {rows : List String} (h : ∀ row ∈ rows, '\n' ∉ row.toList) :
    lines (String.join (rows.map (· ++ "\n"))) = rows := by
  simp only [lines, splitOn_join h]
  rw [if_pos List.getLast?_concat, List.dropLast_concat, List.map_map]
  simp [Function.comp_def]

end StackLinker.Text
