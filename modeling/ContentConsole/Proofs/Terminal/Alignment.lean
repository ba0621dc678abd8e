import ContentConsole.Terminal.Columns
import Mathlib.Algebra.GroupWithZero.Nat

set_option autoImplicit false
set_option relaxedAutoImplicit false

/-!
Columns line up. A column is exactly as wide as its widest cell, so a cell that is filled up always
reaches the start of the next column, in rows of any length. What keeps a row from being printed is
a column that is too wide to be filled up. Main statements: `getElem?_columnWidths_le_iff`,
`linesUp_padRow` and `padRow?_linesUp_iff`.
-/
namespace ContentConsole.Terminal

variable {headings row : List String} {rows : List (List String)} {widths : List Nat} {width : Nat}
  {cell text : String}

/-! ## Widths -/

theorem getElem?_widest (vs ws : List Nat) (i : Nat) : (widest vs ws)[i]? = max vs[i]? ws[i]? := by
  fun_induction widest vs ws generalizing i with
  | case1 ws => simp
  | case2 vs => simp
  | case3 v vs w ws ih =>
    cases i with
    | zero => rfl
    | succ i => simpa using ih i

theorem getElem?_widest_le_iff {vs ws : List Nat} {i : Nat} {bound : Option Nat} :
    (widest vs ws)[i]? ≤ bound ↔ vs[i]? ≤ bound ∧ ws[i]? ≤ bound := by
  rw [getElem?_widest, Option.max_le fun _ _ _ => Nat.max_le]

theorem getElem?_foldl_widest_le_iff {i : Nat} {bound : Option Nat} (rows : List (List String))
    (start : List Nat) :
    (rows.foldl (fun widths row => widest widths (row.map String.length)) start)[i]? ≤ bound ↔
      start[i]? ≤ bound ∧ ∀ row ∈ rows, row[i]?.map String.length ≤ bound := by
  induction rows generalizing start with
  | nil => simp
  | cons row rows ih =>
    rw [List.foldl_cons, ih, getElem?_widest_le_iff, and_assoc, List.forall_mem_cons,
      List.getElem?_map]

/-- A column is within a bound exactly if each of its cells is, that of the headings included. -/
theorem getElem?_columnWidths_le_iff {i : Nat} {bound : Option Nat} :
    (columnWidths headings rows)[i]? ≤ bound ↔
      ∀ row ∈ headings :: rows, row[i]?.map String.length ≤ bound := by
  rw [columnWidths, getElem?_foldl_widest_le_iff, List.getElem?_map, List.forall_mem_cons]

theorem length_le_columnWidths (hrow : row ∈ headings :: rows) (i : Nat) :
    row[i]?.map String.length ≤ (columnWidths headings rows)[i]? := by
  have hself : (columnWidths headings rows)[i]? ≤ (columnWidths headings rows)[i]? := by
    cases (columnWidths headings rows)[i]? <;> simp
  exact getElem?_columnWidths_le_iff.mp hself row hrow

/-! ## Places -/

def columnStart (widths : List Nat) (i : Nat) : Nat := ((widths.take i).map (· + 2)).sum

@[simp]
theorem columnStart_zero (widths : List Nat) : columnStart widths 0 = 0 := rfl

@[simp]
theorem columnStart_cons_succ (width : Nat) (widths : List Nat) (i : Nat) :
    columnStart (width :: widths) (i + 1) = width + 2 + columnStart widths i := by
  simp [columnStart]

/-- A text has the characters of a part from a position on. -/
def ReadsAt (text : List Char) (start : Nat) (part : List Char) : Prop :=
  ∃ before after, text = before ++ part ++ after ∧ before.length = start

theorem ReadsAt.after {text part : List Char} {start : Nat} (h : ReadsAt text start part)
    (front : List Char) : ReadsAt (front ++ text) (front.length + start) part := by
  obtain ⟨before, after, rfl, rfl⟩ := h
  exact ⟨front ++ before, after, by simp only [List.append_assoc], List.length_append⟩

/--
A line of text has each cell of a row in full at the start of its column, and nothing but spaces,
two at least, between a cell and the next one. It ends with the last cell.
-/
structure LinesUp (widths : List Nat) (row : List String) (text : String) : Prop where
  columns : row.length ≤ widths.length
  cell : ∀ i cell, row[i]? = some cell → ReadsAt text.toList (columnStart widths i) cell.toList
  gap : ∀ i cell, row[i]? = some cell → i + 1 < row.length → ∃ n ≥ 2,
    ReadsAt text.toList (columnStart widths i + cell.length) (List.replicate n ' ') ∧
      columnStart widths i + cell.length + n = columnStart widths (i + 1)
  last : ∀ i cell, row[i]? = some cell → i + 1 = row.length →
    text.length = columnStart widths i + cell.length

/-! ## Rows -/

theorem linesUp_nil (widths : List Nat) : LinesUp widths [] "" where
  columns := Nat.zero_le _
  cell := nofun
  gap := nofun
  last := nofun

theorem linesUp_singleton (width : Nat) (widths : List Nat) (cell : String) :
    LinesUp (width :: widths) [cell] cell where
  columns := by simp
  cell
    | 0, _, rfl => ⟨[], [], by simp, rfl⟩
  gap _ _ _ h := absurd h (by simp)
  last
    | 0, _, rfl, _ => by simp

theorem toList_padCell_append (width : Nat) (cell : String) :
    (padCell width cell ++ "  ").toList =
      cell.toList ++ List.replicate (width - cell.length + 2) ' ' := by
  rw [← List.replicate_append_replicate]
  simp only [padCell, String.toList_append, String.toList_ofList, List.append_assoc]
  rfl

theorem length_padCell_append (hcell : cell.length ≤ width) :
    (padCell width cell ++ "  ").length = width + 2 := by
  rw [← String.length_toList, toList_padCell_append, List.length_append, List.length_replicate,
    String.length_toList]
  omega

theorem LinesUp.cons (hcell : cell.length ≤ width) (h : LinesUp widths row text) (hrow : row ≠ []) :
    LinesUp (width :: widths) (cell :: row) (padCell width cell ++ "  " ++ text) := by
  have hfirst : (padCell width cell ++ "  " ++ text).toList =
      cell.toList ++ List.replicate (width - cell.length + 2) ' ' ++ text.toList := by
    rw [String.toList_append, toList_padCell_append]
  have hlater {start : Nat} {part : List Char} (hreads : ReadsAt text.toList start part) :
      ReadsAt (padCell width cell ++ "  " ++ text).toList (width + 2 + start) part := by
    rw [String.toList_append, ← length_padCell_append hcell, ← String.length_toList]
    exact hreads.after _
  constructor
  case columns => simpa using h.columns
  case cell =>
    rintro (_ | i) c hc
    · obtain rfl : cell = c := Option.some.inj hc
      exact ⟨[], _, by rw [hfirst, List.append_assoc, List.nil_append], rfl⟩
    · rw [columnStart_cons_succ]
      exact hlater (h.cell i c hc)
  case gap =>
    rintro (_ | i) c hc hnext
    · obtain rfl : cell = c := Option.some.inj hc
      refine ⟨width - cell.length + 2, Nat.le_add_left _ _,
        ⟨cell.toList, text.toList, hfirst, ?_⟩, ?_⟩
      · rw [columnStart_zero, Nat.zero_add, String.length_toList]
      · rw [columnStart_zero, columnStart_cons_succ, columnStart_zero]
        omega
    · obtain ⟨n, hn, hreads, hstart⟩ := h.gap i c hc (Nat.lt_of_succ_lt_succ hnext)
      refine ⟨n, hn, ?_, ?_⟩
      · rw [columnStart_cons_succ, Nat.add_assoc]
        exact hlater hreads
      · rw [columnStart_cons_succ, columnStart_cons_succ, ← hstart]
        omega
  case last =>
    rintro (_ | i) c hc hlast
    · exact absurd (List.eq_nil_of_length_eq_zero (Nat.succ.inj hlast).symm) hrow
    · rw [String.length_append, length_padCell_append hcell, h.last i c hc (Nat.succ.inj hlast),
        columnStart_cons_succ]
      exact (Nat.add_assoc ..).symm

theorem padRow_cons (cell : String) (hrow : row ≠ []) (width : Nat) (widths : List Nat) :
    padRow (cell :: row) (width :: widths) = padCell width cell ++ "  " ++ padRow row widths := by
  obtain ⟨next, row, rfl⟩ := List.exists_cons_of_ne_nil hrow
  have hcells : padCells (next :: row) widths ≠ [] := by cases row <;> exact List.cons_ne_nil _ _
  exact String.intercalate_cons_of_ne_nil hcells

/-- A row lines up with columns that have room for its cells. -/
theorem linesUp_padRow (row : List String) (widths : List Nat)
    (hroom : ∀ i : Nat, row[i]?.map String.length ≤ widths[i]?) :
    LinesUp widths row (padRow row widths) := by
  induction row generalizing widths with
  | nil => exact linesUp_nil widths
  | cons cell row ih =>
    cases widths with
    | nil => exact absurd (hroom 0) (by simp)
    | cons width widths =>
      by_cases hrow : row = []
      · subst hrow
        exact linesUp_singleton width widths cell
      · rw [padRow_cons cell hrow]
        exact (ih widths fun i => hroom (i + 1)).cons (Option.some_le_some.mp (hroom 0)) hrow

/-! ## Tables -/

theorem padRow?_eq_some_iff :
    padRow? row widths = some text ↔ isFillable row widths = true ∧ padRow row widths = text := by
  rw [padRow?, Option.ite_none_right_eq_some, Option.some.injEq]

theorem le_some_iff {o : Option Nat} {bound : Nat} : o ≤ some bound ↔ ∀ n ∈ o, n ≤ bound := by
  cases o <;> simp

theorem isFillable_iff :
    isFillable row widths = true ↔ ∀ i < row.length - 1, widths[i]? ≤ some maxFill := by
  simp only [isFillable, List.all_eq_true, decide_eq_true_eq, List.mem_iff_getElem?, le_some_iff,
    Option.mem_def]
  constructor
  · intro h i hi width hwidth
    exact h width ⟨i, by rw [List.getElem?_take_of_lt hi, hwidth]⟩
  · rintro h width ⟨i, hi⟩
    obtain ⟨hlt, hwidth⟩ := by
      simpa only [List.getElem?_take, Option.ite_none_right_eq_some] using hi
    exact h i hlt width hwidth

theorem isFillable_columnWidths_iff :
    isFillable row (columnWidths headings rows) = true ↔
      ∀ i < row.length - 1, ∀ other ∈ headings :: rows, ∀ cell ∈ other[i]?,
        cell.length ≤ maxFill := by
  rw [isFillable_iff]
  refine forall₂_congr fun i _ => ?_
  rw [getElem?_columnWidths_le_iff]
  refine forall₂_congr fun other _ => ?_
  simp only [le_some_iff, Option.mem_def, Option.map_eq_some_iff, forall_exists_index, and_imp,
    forall_apply_eq_imp_iff₂]

/--
A row of a table becomes a line with its cells in their columns exactly if no cell of the table is
longer than a cell can be filled up to, in the columns before that of the last cell of the row.
-/
theorem padRow?_linesUp_iff (headings : List String) (rows : List (List String)) {row : List String}
    (hrow : row ∈ headings :: rows) :
    let widths := columnWidths headings rows
    (∃ text, padRow? row widths = some text ∧ LinesUp widths row text) ↔
      ∀ i < row.length - 1, ∀ other ∈ headings :: rows, ∀ cell ∈ other[i]?,
        cell.length ≤ maxFill := by
  intro widths
  rw [← isFillable_columnWidths_iff]
  constructor
  · rintro ⟨text, htext, -⟩
    exact (padRow?_eq_some_iff.mp htext).1
  · intro hfill
    exact ⟨padRow row widths, padRow?_eq_some_iff.mpr ⟨hfill, rfl⟩,
      linesUp_padRow row widths (length_le_columnWidths hrow)⟩

theorem padRow?_linesUp_ragged :
    let widths := columnWidths ["Key", "Value"] [["élément", "Welcome", "yes", "extra"], ["id"]]
    ∃ text, padRow? ["élément", "Welcome", "yes", "extra"] widths = some text ∧
      LinesUp widths ["élément", "Welcome", "yes", "extra"] text :=
  (padRow?_linesUp_iff ["Key", "Value"] [["élément", "Welcome", "yes", "extra"], ["id"]]
    (by simp)).mpr (by decide)

/-- A table prints none of its lines if its first column has a cell of 65536 characters. -/
theorem padRow?_tooLong :
    let headings := ["Entity", "Parent", "Resource"]
    let rows := [[String.ofList (List.replicate 65536 'a'), "-", "-"]]
    ∀ row ∈ headings :: rows, padRow? row (columnWidths headings rows) = none := by
  intro headings rows row hrow
  have hlength : 0 < row.length - 1 := by
    obtain rfl | hrow := List.mem_cons.mp hrow
    · decide
    · obtain rfl := List.mem_singleton.mp hrow
      exact Nat.zero_lt_two
  refine if_neg fun hfill => ?_
  have hshort := isFillable_columnWidths_iff.mp hfill 0 hlength _ (.tail _ (.head _)) _ rfl
  rw [String.length_ofList, List.length_replicate] at hshort
  exact absurd hshort (by decide)

end ContentConsole.Terminal
