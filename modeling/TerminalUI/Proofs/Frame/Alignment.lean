import Mathlib.Data.List.GetD
import TerminalUI.Frame.Dump
import TerminalUI.Proofs.Frame.Beside
import TerminalUI.Proofs.Frame.Controls
import TerminalUI.Proofs.Text.OneLine

/-!
# Alignment of dumps

The rows of a dump are filled up to its width in two ways, which count differently: a row of text by
the columns that its cells fill, and a row of markers by characters. Where every cell holds text,
which is so in every frame that a view draws (`View.textual_render`), there are as many markers as
columns, and both come out at the same width.

* `Frame.existsUnique_covers` : every column of a line belongs to exactly one of its cells;
* `Frame.getD_markerRow` : the markers of a line, the caret of the dot among them;
* `Frame.dump_eq` : the dump as lines, with the rows of each line of the frame between its borders;
* `Frame.lineRows_aligned` : what the rows of a line show;
* `Frame.print_eq` : which frames can be printed;
* `Frame.print_aligned` : every frame that is not too wide is printed, and its rows are aligned.

A row of text is filled up with a repeated blank, which may be as long as texts can be, but a row of
markers only up to `Frame.widest`. A frame that is wider is not printed as soon as it has a line
(`Frame.print_tooWide`), and an assertion about its lines then fails without saying so.
-/

namespace TerminalUI

namespace Style

theorem marker_mem (s : Style) : s.marker ∈ [' ', '#', '*', '_', 'R', 'G', '?'] := by
  unfold marker
  repeat' split
  all_goals decide

end Style

namespace Frame

variable {f : Frame} {line : List Cell} {cell : Cell} {column width i : Nat}

/-- Every cell of the frame holds text. -/
def Textual (f : Frame) : Prop := ∀ line ∈ f.lines, ∀ c ∈ line, c.text ≠ ""

instance (f : Frame) : Decidable f.Textual :=
  inferInstanceAs (Decidable (∀ line ∈ f.lines, ∀ c ∈ line, c.text ≠ ""))

theorem Shows.textual (h : f.Shows) : f.Textual :=
  fun line hline c hc => (h c (List.mem_flatten.2 ⟨line, hline, hc⟩)).text_ne_empty

/-! ### The cell of a column -/

/-- The cell of the line fills the column, among others maybe. -/
def Covers (line : List Cell) (column : Nat) (cell : Cell) : Prop :=
  ∃ front back, line = front ++ cell :: back ∧
    lineWidth front ≤ column ∧ column < lineWidth front + cell.width

theorem covers_cons_iff {c : Cell} : Covers (c :: line) column cell ↔
    column < c.width ∧ cell = c ∨ c.width ≤ column ∧ Covers line (column - c.width) cell := by
  constructor
  · rintro ⟨front, back, heq, hle, hlt⟩
    cases front with
    | nil =>
      obtain ⟨rfl, rfl⟩ := List.cons.inj heq
      exact .inl ⟨by simpa [lineWidth] using hlt, rfl⟩
    | cons d front =>
      obtain ⟨rfl, rfl⟩ := List.cons.inj heq
      rw [lineWidth_cons] at hle hlt
      exact .inr ⟨by omega, front, back, rfl, by omega, by omega⟩
  · rintro (⟨hlt, rfl⟩ | ⟨hwidth, front, back, rfl, hle, hlt⟩)
    · exact ⟨[], line, rfl, Nat.zero_le _, by simpa [lineWidth] using hlt⟩
    · refine ⟨c :: front, back, rfl, ?_, ?_⟩ <;> rw [lineWidth_cons] <;> omega

/-- Every column of a line belongs to exactly one of its cells. -/
theorem existsUnique_covers (h : column < lineWidth line) : ∃! cell, Covers line column cell := by
  induction line generalizing column with
  | nil => exact absurd h (Nat.not_lt_zero column)
  | cons c line ih =>
    rw [lineWidth_cons] at h
    simp only [covers_cons_iff]
    -- the column is in the first cell, or it is one of the rest of the line
    rcases Nat.lt_or_ge column c.width with hlt | hge
    · exact ⟨c, .inl ⟨hlt, rfl⟩, fun d hd => hd.elim And.right fun hd => absurd hlt (by omega)⟩
    · obtain ⟨cell, hcell, hunique⟩ := @ih (column - c.width) (by omega)
      exact ⟨cell, .inr ⟨hge, hcell⟩,
        fun d hd => hd.elim (fun hd => absurd hge (by omega)) fun hd => hunique d hd.2⟩

/-! ### Rows of markers -/

theorem markers_append (front back : List Cell) :
    markers (front ++ back) = markers front ++ markers back :=
  List.flatMap_append

theorem markers_cons (h : cell.text ≠ "") (line : List Cell) :
    markers (cell :: line) = List.replicate cell.width cell.style.marker ++ markers line := by
  rw [markers, List.flatMap_cons, Nat.max_eq_right (Cell.width_pos h), markers]

/-- There is one marker for each column. -/
theorem length_markers (h : ∀ c ∈ line, c.text ≠ "") : (markers line).length = lineWidth line := by
  induction line with
  | nil => rfl
  | cons c line ih =>
    obtain ⟨hc, hline⟩ := List.forall_mem_cons.1 h
    rw [markers_cons hc, List.length_append, List.length_replicate, ih hline, lineWidth_cons]

/-- The marker of a column is that of the cell there. -/
theorem getD_markers_of_covers (h : ∀ c ∈ line, c.text ≠ "") (hcell : Covers line column cell) :
    (markers line).getD column ' ' = cell.style.marker := by
  obtain ⟨front, back, rfl, hle, hlt⟩ := hcell
  obtain ⟨hfront, hrest⟩ := List.forall_mem_append.1 h
  -- the cells in front have as many markers as columns, so the column counts on from there
  have hlength := length_markers hfront
  rw [markers_append, markers_cons (List.forall_mem_cons.1 hrest).1,
    List.getD_append_right _ _ _ _ (by omega),
    List.getD_append _ _ _ _ (by rw [List.length_replicate]; omega), List.getD_replicate]
  omega

theorem getD_markers_of_le (h : ∀ c ∈ line, c.text ≠ "") (hcolumn : lineWidth line ≤ column) :
    (markers line).getD column ' ' = ' ' :=
  List.getD_eq_default _ _ (length_markers h ▸ hcolumn)

theorem getD_markers_mem (h : ∀ c ∈ line, c.text ≠ "") (column : Nat) :
    (markers line).getD column ' ' ∈ [' ', '#', '*', '_', 'R', 'G', '?'] := by
  rcases Nat.lt_or_ge column (lineWidth line) with hin | hout
  · obtain ⟨cell, hcell, -⟩ := existsUnique_covers hin
    rw [getD_markers_of_covers h hcell]
    exact cell.style.marker_mem
  · rw [getD_markers_of_le h hout]
    exact List.mem_cons_self

/-- A row filled up with blanks to a width. -/
def filledUp (row : List Char) (width : Nat) : List Char :=
  row ++ List.replicate (width - row.length) ' '

theorem length_filledUp (row : List Char) (width : Nat) :
    (filledUp row width).length = max row.length width := by
  rw [filledUp, List.length_append, List.length_replicate]
  omega

/-- What is read behind the end of a row is blank, so filling it up changes nothing. -/
theorem getD_filledUp (row : List Char) (width column : Nat) :
    (filledUp row width).getD column ' ' = row.getD column ' ' := by
  rcases Nat.lt_or_ge column row.length with hlt | hge
  · rw [filledUp, List.getD_append _ _ _ _ hlt]
  · rw [filledUp, List.getD_append_right _ _ _ _ hge, List.getD_eq_default row _ hge,
      List.getD_eq_getElem?_getD, List.getElem?_getD_replicate_default_eq]

theorem length_withCaret (row : List Char) (column : Nat) :
    (withCaret row column).length = max row.length (column + 1) := by
  rw [withCaret, List.length_set]
  exact length_filledUp row (column + 1)

theorem getD_withCaret (row : List Char) (dot column : Nat) :
    (withCaret row dot).getD column ' ' = if column = dot then '^' else row.getD column ' ' := by
  have hlength := length_filledUp row (dot + 1)
  rw [← getD_filledUp row (dot + 1), withCaret, ← filledUp, List.getD_eq_getElem?_getD,
    List.getElem?_set]
  by_cases h : column = dot
  · rw [if_pos h, if_pos h.symm, if_pos (by omega), Option.getD_some]
  · rw [if_neg h, if_neg (Ne.symm h), List.getD_eq_getElem?_getD]

/-- The markers of a line: a caret where the dot is, and those of the cells everywhere else. -/
theorem getD_markerRow (f : Frame) (i : Nat) (line : List Cell) (column : Nat) :
    (f.markerRow i line).getD column ' ' =
      if ⟨i, column⟩ = f.dot then '^' else (markers line).getD column ' ' := by
  have hdot : (⟨i, column⟩ : Position) = f.dot ↔ i = f.dot.line ∧ column = f.dot.column := by
    rw [← Position.mk.injEq]
  unfold markerRow
  by_cases h : i = f.dot.line
  · rw [if_pos h, getD_withCaret]
    simp only [hdot, and_iff_right h]
  · rw [if_neg h, if_neg fun heq => h (hdot.1 heq).1]

theorem length_markerRow_le (hf : f.Textual) (hline : line ∈ f.lines) (i : Nat) :
    (f.markerRow i line).length ≤ f.dumpWidth := by
  have hmarkers := length_markers (hf line hline)
  have hle := lineWidth_le_contentWidth hline
  unfold markerRow dumpWidth
  split
  · rw [length_withCaret]
    omega
  · omega

/-! ### The rows of a dump -/

/-- The two rows that show a line: the cells of the one, and the characters of the other. -/
structure LineRows where
  cells : List Cell
  markers : List Char

/-- The rows that show line number `i`, filled up to the width of the dump. -/
def lineRows (f : Frame) (i : Nat) (line : List Cell) : LineRows where
  cells := line ++ blanks (f.dumpWidth - lineWidth line)
  markers := filledUp (f.markerRow i line) f.dumpWidth

theorem Covers.lt (h : Covers line column cell) : column < lineWidth line := by
  obtain ⟨front, back, rfl, -, hlt⟩ := h
  rw [lineWidth_append, lineWidth_cons]
  omega

theorem lineWidth_le_dumpWidth (hline : line ∈ f.lines) : lineWidth line ≤ f.dumpWidth := by
  have hle := lineWidth_le_contentWidth hline
  unfold dumpWidth
  omega

theorem length_markers_lineRows (hf : f.Textual) (hline : line ∈ f.lines) (i : Nat) :
    (f.lineRows i line).markers.length = f.dumpWidth := by
  rw [lineRows, length_filledUp, Nat.max_eq_right (length_markerRow_le hf hline i)]

theorem getElem?_markers_lineRows (hf : f.Textual) (hline : line ∈ f.lines) (i : Nat)
    (hcolumn : column < f.dumpWidth) : (f.lineRows i line).markers[column]? =
      some (if ⟨i, column⟩ = f.dot then '^' else (markers line).getD column ' ') := by
  have hlength := length_markers_lineRows hf hline i
  rw [← getD_markerRow, ← getD_filledUp _ f.dumpWidth,
    List.getD_eq_getElem _ _ (hlength.symm ▸ hcolumn)]
  exact List.getElem?_eq_getElem _

/-- The rows that show line number `i`, as they should be. -/
structure LineRows.Aligned (rows : LineRows) (f : Frame) (i : Nat) (line : List Cell) : Prop where
  /-- The row of text has the cells of the line, and blanks behind them. -/
  cells_eq : rows.cells = line ++ blanks (f.dumpWidth - lineWidth line)
  /-- The row of text spans the width of the dump. -/
  lineWidth_cells : lineWidth rows.cells = f.dumpWidth
  /-- The row of markers spans the width of the dump. -/
  length_markers : rows.markers.length = f.dumpWidth
  /-- The marker of a column is that of the cell that covers it, unless the dot is there. -/
  covered : ∀ column cell, Covers line column cell → ⟨i, column⟩ ≠ f.dot →
    rows.markers[column]? = some cell.style.marker
  /-- Past the last cell there is no marker, unless the dot is there. -/
  past : ∀ column, lineWidth line ≤ column → column < f.dumpWidth → ⟨i, column⟩ ≠ f.dot →
    rows.markers[column]? = some ' '
  /-- There is a caret at the dot and nowhere else. -/
  caret : ∀ column, rows.markers[column]? = some '^' ↔ ⟨i, column⟩ = f.dot

/-- **The rows of a line are aligned** with its cells and with each other. -/
theorem lineRows_aligned (hf : f.Textual) (hline : line ∈ f.lines) (i : Nat) :
    (f.lineRows i line).Aligned f i line := by
  have htext := hf line hline
  have hwidth := lineWidth_le_dumpWidth hline
  have hlength := length_markers_lineRows hf hline i
  have hmarker {column : Nat} (hcolumn : column < f.dumpWidth) :=
    getElem?_markers_lineRows hf hline i hcolumn
  refine ⟨rfl, ?_, hlength, fun column cell hcell hdot => ?_, fun column hle hlt hdot => ?_,
    fun column => ⟨fun hcaret => ?_, fun hdot => ?_⟩⟩
  · rw [lineRows, lineWidth_fill, Nat.max_eq_left hwidth]
  · rw [hmarker (Nat.lt_of_lt_of_le hcell.lt hwidth), if_neg hdot,
      getD_markers_of_covers htext hcell]
  · rw [hmarker hlt, if_neg hdot, getD_markers_of_le htext hle]
  · -- no style has a caret as its marker
    have hlt : column < f.dumpWidth := hlength ▸ (List.getElem?_eq_some_iff.1 hcaret).1
    by_contra hdot
    rw [hmarker hlt, if_neg hdot] at hcaret
    have hmem := getD_markers_mem htext column
    rw [Option.some.inj hcaret] at hmem
    revert hmem
    decide
  · have hlt : column < f.dumpWidth := by
      have hcolumn : column = f.dot.column := congrArg Position.column hdot
      unfold dumpWidth
      omega
    rw [hmarker hlt, if_pos hdot]

/-- The rows of a line as lines of text. -/
def LineRows.lines (rows : LineRows) : List String :=
  ["│" ++ String.join (rows.cells.map Cell.text) ++ "│", "│" ++ String.ofList rows.markers ++ "│"]

/-- The lines of a dump with these rows between its borders. -/
def dumpLines (f : Frame) (rows : List LineRows) : List String :=
  [f.title, border f.dumpWidth "┌" "┐"] ++ rows.flatMap LineRows.lines ++
    [border f.dumpWidth "└" "┘"]

/-- The rows of all lines. -/
def allRows (f : Frame) : List LineRows := (List.range f.height).zipWith f.lineRows f.lines

theorem getElem?_allRows {i : Nat} (hline : f.lines[i]? = some line) :
    f.allRows[i]? = some (f.lineRows i line) := by
  have hi : i < f.height := (List.getElem?_eq_some_iff.1 hline).1
  simp [allRows, List.getElem?_zipWith, hline, hi]

theorem length_allRows (f : Frame) : f.allRows.length = f.height := by
  simp [allRows, height]

theorem exists_of_mem_allRows {rows : LineRows} (h : rows ∈ f.allRows) :
    ∃ i line, line ∈ f.lines ∧ rows = f.lineRows i line := by
  obtain ⟨k, hk⟩ := List.mem_iff_getElem?.1 h
  obtain ⟨i, line, -, hline, rfl⟩ := List.getElem?_zipWith_eq_some.1 hk
  exact ⟨i, line, List.mem_of_getElem? hline, rfl⟩

theorem dumpRows_eq (f : Frame) (i : Nat) (line : List Cell) :
    f.dumpRows f.dumpWidth i line = terminated (f.lineRows i line).lines := by
  have hblanks (n : Nat) :
      String.join ((blanks n).map Cell.text) = String.ofList (List.replicate n ' ') := by
    rw [← String.toList_inj]
    simp [blanks, Cell.blank, String.toList_join, List.flatMap_replicate]
  rw [← String.toList_inj]
  simp [dumpRows, terminated, LineRows.lines, lineRows, filledUp, hblanks]

/-- The dump of a frame is these lines, each ended by a line feed. -/
theorem dump_eq (f : Frame) : f.dump = terminated (f.dumpLines f.allRows) := by
  have hrows : (List.range f.height).zipWith (f.dumpRows f.dumpWidth) f.lines =
      f.allRows.map fun rows => terminated rows.lines := by
    simp only [allRows, List.map_zipWith, ← dumpRows_eq]
  rw [dump, hrows, dumpLines, terminated_append, terminated_append, terminated_flatMap]
  simp [terminated, String.append_assoc]

theorem isOneLine_markers (hf : f.Textual) (hline : line ∈ f.lines) (i : Nat) :
    isOneLine (String.ofList (f.lineRows i line).markers) = true := by
  have hmarks : ∀ c ∈ ['^', ' ', '#', '*', '_', 'R', 'G', '?'], (c ≠ '\n' && c ≠ '\r') = true :=
    List.all_eq_true.1 (by decide)
  rw [isOneLine, String.toList_ofList, List.all_eq_true]
  intro c hc
  refine hmarks c ?_
  obtain ⟨column, hcolumn⟩ := List.mem_iff_getElem?.1 hc
  have hlt : column < f.dumpWidth :=
    length_markers_lineRows hf hline i ▸ (List.getElem?_eq_some_iff.1 hcolumn).1
  rw [getElem?_markers_lineRows hf hline i hlt, Option.some.injEq] at hcolumn
  rw [← hcolumn]
  split
  · exact List.mem_cons_self
  · exact List.mem_cons_of_mem _ (getD_markers_mem (hf line hline) column)

theorem isOneLine_border {left right : String} (hleft : isOneLine left = true)
    (hright : isOneLine right = true) : isOneLine (border width left right) = true := by
  have hedge : ∀ s ∈ List.replicate width "─", isOneLine s = true :=
    fun s hs => List.eq_of_mem_replicate hs ▸ by decide
  simp only [border, isOneLine_append, hleft, hright, isOneLine_join.2 hedge, and_self]

/-- If the cells hold no line breaks, the lines of the dump do not, either. -/
theorem isOneLine_of_mem_dumpLines (hf : f.Textual)
    (htext : ∀ line ∈ f.lines, ∀ c ∈ line, isOneLine c.text = true) :
    ∀ l ∈ f.dumpLines f.allRows, isOneLine l = true := by
  have hside : isOneLine "│" = true := by decide
  intro l hl
  simp only [dumpLines, List.cons_append, List.nil_append, List.mem_cons, List.mem_append,
    List.mem_flatMap, List.not_mem_nil, or_false, LineRows.lines] at hl
  rcases hl with rfl | rfl | ⟨rows, hrows, hl⟩ | rfl
  · simp only [title, isOneLine_append, isOneLine_toString, and_true]
    decide
  · exact isOneLine_border (by decide) (by decide)
  · obtain ⟨i, line, hline, rfl⟩ := exists_of_mem_allRows hrows
    rcases hl with rfl | rfl
    · simp only [isOneLine_append, hside, isOneLine_join, List.forall_mem_map, true_and, and_true]
      refine List.forall_mem_append.2 ⟨htext line hline, fun c hc => ?_⟩
      rw [List.eq_of_mem_replicate hc]
      decide
    · simp only [isOneLine_append, hside, isOneLine_markers hf hline, and_self]
  · exact isOneLine_border (by decide) (by decide)

/-! ### Printing -/

/-- The rows of the frame are no wider than texts can be filled up to, or there are none, and its
borders are no longer than a text can be. -/
def Printable (f : Frame) : Prop :=
  f.dumpWidth ≤ widest ∨ f.lines = [] ∧ f.dumpWidth * 3 ≤ longest

instance (f : Frame) : Decidable f.Printable :=
  inferInstanceAs (Decidable (f.dumpWidth ≤ widest ∨ f.lines = [] ∧ f.dumpWidth * 3 ≤ longest))

theorem forM_checkFill (lines : List (List Cell)) (width : Nat) :
    (forM lines fun _ => checkFill width) =
      if lines = [] ∨ width ≤ widest then .ok () else .error .tooWide := by
  induction lines with
  | nil => rfl
  | cons line lines ih =>
    rw [List.forM_cons, ih, checkFill]
    rcases Nat.lt_or_ge widest width with h | h
    · have hnot : ¬ (line :: lines = [] ∨ width ≤ widest) := by simpa using h
      rw [if_pos h, if_neg hnot]
      rfl
    · rw [if_neg (Nat.not_lt.2 h), if_pos (.inr h), if_pos (.inr h)]
      rfl

/-- **Which frames can be printed.** -/
theorem print_eq (f : Frame) :
    f.print = if f.Printable then .ok f.dump else .error .tooWide := by
  have hbytes : byteLength "─" = 3 := rfl
  -- borders are within their limit wherever rows are within theirs
  have hlong : widest * 3 ≤ longest := by decide
  rw [print, checkRepeat, hbytes, forM_checkFill]
  rcases Nat.lt_or_ge longest (f.dumpWidth * 3) with hbytes | hbytes
  · have hnot : ¬ f.Printable := by
      rintro (h | ⟨-, h⟩) <;> omega
    rw [if_pos hbytes, if_neg hnot]
    rfl
  · have hiff : f.lines = [] ∨ f.dumpWidth ≤ widest ↔ f.Printable :=
      ⟨fun h => h.elim (fun h => .inr ⟨h, hbytes⟩) .inl, fun h => h.elim .inr fun h => .inl h.1⟩
    rw [if_neg (Nat.not_lt.2 hbytes)]
    simp only [hiff]
    by_cases h : f.Printable
    · rw [if_pos h, if_pos h]
      rfl
    · rw [if_neg h, if_neg h]
      rfl

/-- **A dump is aligned.** If every cell of a frame holds text and the frame is not too wide, it is
printed, with two rows for each of its lines between the borders. If no line ends inside of a cell,
they are the lines of what is printed. The text of a line spans the width of the dump, and so do its
markers, which are those of the cells above them, with a caret at the dot and nowhere else. A frame
that is too wide is not printed. -/
theorem print_aligned (hf : f.Textual) :
    (f.Printable → ∃ rows : List LineRows,
      f.print = .ok (terminated (f.dumpLines rows)) ∧
      ((∀ line ∈ f.lines, ∀ c ∈ line, isOneLine c.text = true) →
        TerminalUI.lines (terminated (f.dumpLines rows)) = f.dumpLines rows) ∧
      rows.length = f.height ∧
      ∀ (i : Nat) (line : List Cell) (r : LineRows),
        f.lines[i]? = some line → rows[i]? = some r → r.Aligned f i line) ∧
    (¬ f.Printable → f.print = .error .tooWide) := by
  refine ⟨fun h => ⟨f.allRows, ?_, fun htext => ?_, f.length_allRows, ?_⟩, fun h => ?_⟩
  · rw [print_eq, if_pos h, dump_eq]
  · exact lines_terminated (isOneLine_of_mem_dumpLines hf htext)
  · intro i line r hline hr
    rw [getElem?_allRows hline, Option.some.injEq] at hr
    exact hr ▸ lineRows_aligned hf (List.mem_of_getElem? hline) i
  · rw [print_eq, if_neg h]

/-- Lines of different widths, a cell of two columns and one with a caret as its text, and the dot
past the end of its line. -/
def mixed : Frame where
  width := 3
  lines := [[⟨"a", {}⟩, ⟨"界", Style.plain.withAttribute .bold⟩, ⟨"b", {}⟩],
    [⟨"x", Style.plain.withForeground .red⟩, ⟨"^", {}⟩]]
  dot := ⟨1, 5⟩

theorem print_aligned_mixed : mixed.Textual ∧ mixed.Printable ∧ ∃ rows : List LineRows,
    mixed.print = .ok (terminated (mixed.dumpLines rows)) ∧
    TerminalUI.lines (terminated (mixed.dumpLines rows)) = mixed.dumpLines rows ∧ rows.length = 2 ∧
    ∀ (i : Nat) (line : List Cell) (r : LineRows),
      mixed.lines[i]? = some line → rows[i]? = some r → r.Aligned mixed i line := by
  have hf : mixed.Textual := by decide
  have hprintable : mixed.Printable := by decide +kernel
  obtain ⟨rows, hprint, hlines, hlength, haligned⟩ := (print_aligned hf).1 hprintable
  exact ⟨hf, hprintable, rows, hprint, hlines (by decide), hlength, haligned⟩

example : TerminalUI.lines mixed.dump =
    ["Width = 3, Dot = (1, 5)", "┌──────┐", "│a界b  │", "│ **   │", "│x^    │", "│R    ^│",
      "└──────┘"] := by
  decide +kernel

/-- One empty line of a frame of 65536 columns is not printed, and a text that was expected there is
not reported as missing. -/
theorem print_tooWide : (empty 65536).Textual ∧ (empty 65536).print = .error .tooWide ∧
    (empty 65536).expect ["x"] = .error .tooWide := by
  refine ⟨by decide, rfl, ?_⟩
  decide

end Frame

/-- Every cell that a view draws holds text. -/
theorem View.textual_render (v : View) (width height : Nat) : (v.render width height).Textual :=
  (v.shows_render width height).textual

end TerminalUI
