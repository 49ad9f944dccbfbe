import TerminalUI.Proofs.Text.Cutting
import TerminalUI.Proofs.View.Fitting

/-!
# Widths of frames

A view of rows and equal columns never draws a line that is wider than it was asked to, as long as
each of its leaves has room for the widest cell, which fills two columns.

* `Writer.kept_lined` : no line that is written is wider than the width, or than two columns;
* `Frame.Contained.below`, `Frame.Contained.beside` : frames that are put together stay within the
  widths of both, also where lines are shorter or longer than the width that a frame was drawn for;
* `View.leafWidths` : the widths at which the leaves of a view are drawn;
* `View.lineWidth_render_le` : the bound on every line of every nesting.
-/

namespace TerminalUI

namespace Frame

/-- Neither the width that the frame was drawn for nor any of its lines exceeds so many columns. -/
structure Contained (f : Frame) (columns : Nat) : Prop where
  width_le : f.width ≤ columns
  lineWidth_le {line : List Cell} (hline : line ∈ f.lines) : lineWidth line ≤ columns

variable {f upper lower left right : Frame} {columns m n : Nat}

theorem contained_empty (width : Nat) : (empty width).Contained width where
  width_le := Nat.le_refl width
  lineWidth_le hline := by
    rw [List.mem_singleton.1 hline]
    exact Nat.zero_le width

theorem Contained.mono (h : f.Contained m) (hle : m ≤ n) : f.Contained n :=
  ⟨Nat.le_trans h.width_le hle, fun hline => Nat.le_trans (h.lineWidth_le hline) hle⟩

theorem Contained.trim (h : f.Contained columns) (low high : Nat) :
    (f.trim low high).Contained columns :=
  ⟨h.width_le, fun hline => h.lineWidth_le (List.mem_of_mem_take (List.mem_of_mem_drop hline))⟩

theorem Contained.below (hupper : upper.Contained columns) (hlower : lower.Contained columns)
    (moveDot : Bool) : (upper.below lower moveDot).Contained columns :=
  ⟨hupper.width_le, fun hline =>
    (List.mem_append.1 hline).elim hupper.lineWidth_le hlower.lineWidth_le⟩

theorem lineWidth_cons (c : Cell) (line : List Cell) :
    lineWidth (c :: line) = c.width + lineWidth line :=
  total_cons _ c line

theorem lineWidth_append (left right : List Cell) :
    lineWidth (left ++ right) = lineWidth left + lineWidth right :=
  total_append _ left right

theorem lineWidth_blanks (n : Nat) : lineWidth (blanks n) = n := by
  have hblank : Cell.blank.width = 1 := by decide
  induction n with
  | zero => rfl
  | succ n ih =>
    rw [blanks, List.replicate_succ, lineWidth_cons, hblank, ← blanks, ih, Nat.add_comm]

/-- A line on the right begins where the one on the left ends, or at the width that the left frame
was drawn for if that is further. -/
theorem lineWidth_le_of_mem_joinLines {width : Nat} {left right : List (List Cell)}
    {line : List Cell} (hwidth : width ≤ m) (hleft : ∀ l ∈ left, lineWidth l ≤ m)
    (hright : ∀ r ∈ right, lineWidth r ≤ n) (hline : line ∈ joinLines width left right) :
    lineWidth line ≤ m + n := by
  induction left generalizing right with
  | nil =>
    cases right with
    | nil => cases hline
    | cons r right =>
      obtain ⟨r, hr, rfl⟩ := List.mem_map.1 hline
      have := hright r hr
      rw [lineWidth_append, lineWidth_blanks]
      omega
  | cons l left ih =>
    obtain ⟨hl, hleft⟩ := List.forall_mem_cons.1 hleft
    cases right with
    | nil =>
      rcases List.mem_cons.1 hline with rfl | hline
      · omega
      · exact Nat.le_add_right_of_le (hleft line hline)
    | cons r right =>
      obtain ⟨hr, hright⟩ := List.forall_mem_cons.1 hright
      rcases List.mem_cons.1 hline with rfl | hline
      · rw [lineWidth_append, lineWidth_append, lineWidth_blanks]
        omega
      · exact ih hleft hright hline

theorem Contained.beside (hleft : left.Contained m) (hright : right.Contained n) :
    (left.beside right).Contained (m + n) :=
  ⟨Nat.add_le_add hleft.width_le hright.width_le,
    lineWidth_le_of_mem_joinLines hleft.width_le (fun _ => hleft.lineWidth_le)
      (fun _ => hright.lineWidth_le)⟩

end Frame

/-! ### Texts and code areas -/

namespace Writer

/-- The column is where the current line ends, and no line is wider than the width, or than two
columns where that is more. -/
structure Lined (width : Nat) (w : Writer) : Prop where
  width_eq : w.width = width
  column_eq : w.column = Frame.lineWidth w.line
  column_le : w.column ≤ max width 2
  lineWidth_le {line : List Cell} (hline : line ∈ w.above) : Frame.lineWidth line ≤ max width 2

variable {w : Writer} {width : Nat}

theorem lined_ofWidth (width : Nat) : Lined width (ofWidth width) :=
  ⟨rfl, rfl, Nat.zero_le _, nofun⟩

theorem lineWidth_reverse (line : List Cell) :
    Frame.lineWidth line.reverse = Frame.lineWidth line := total_reverse _ _

theorem Lined.newLine (h : Lined width w) : Lined width w.newLine where
  width_eq := h.width_eq
  column_eq := rfl
  column_le := Nat.zero_le _
  lineWidth_le hline := by
    rcases List.mem_cons.1 hline with rfl | hline
    · rw [lineWidth_reverse, ← h.column_eq]
      exact h.column_le
    · exact h.lineWidth_le hline

/-- Writing a cell where there is room for it. -/
theorem Lined.push (h : Lined width w) {c : Cell} (hroom : w.column + c.width ≤ max width 2) :
    Lined width { w with line := c :: w.line, column := w.column + c.width } where
  width_eq := h.width_eq
  column_eq := by
    rw [Frame.lineWidth_cons, ← h.column_eq, Nat.add_comm]
  column_le := hroom
  lineWidth_le := h.lineWidth_le

theorem kept_lined (width : Nat) : Kept (Lined width) where
  setDot h := ⟨h.width_eq, h.column_eq, h.column_le, h.lineWidth_le⟩
  newLine := Lined.newLine
  cell {w} h c hc := by
    have hwidth := hc.width_le
    unfold Writer.cell
    dsimp only
    split
    · -- a new line has room for any cell
      exact h.newLine.push (by simp only [Writer.newLine]; omega)
    · have := h.width_eq
      exact h.push (by omega)

theorem Lined.finish (h : Lined width w) : w.finish.Contained (max width 2) where
  width_le := by
    rw [Writer.finish, h.width_eq]
    exact Nat.le_max_left width 2
  lineWidth_le hline := by
    rcases List.mem_cons.1 (List.mem_reverse.1 hline) with rfl | hline
    · rw [lineWidth_reverse, ← h.column_eq]
      exact h.column_le
    · exact h.lineWidth_le hline

end Writer

theorem CodeLayout.contained_render (v : CodeLayout) (width height : Nat) :
    (v.render width height).Contained (max width 2) :=
  v.kept_render (Writer.kept_lined width) (Frame.Contained · (max width 2)) Writer.Lined.finish
    (fun low high h => h.trim low high) (Writer.lined_ofWidth width) height

namespace View

theorem contained_renderText (spans : List StyledText) (dotAfter width height : Nat) :
    (renderText spans dotAfter width height).Contained (max width 2) :=
  (kept_writeSpans (Writer.kept_lined width) dotAfter 0 (Writer.lined_ofWidth width)
    spans).finish.trim 0 height

/-! ### Every view of rows and columns -/

/-- Views in which no columns are as wide as their content. -/
inductive Fixed : View → Prop where
  | empty : Fixed .empty
  | text (spans : List StyledText) (dotAfter : Nat) : Fixed (.text spans dotAfter)
  | code (layout : CodeLayout) : Fixed (.code layout)
  | rows {children : List View} (focus : Nat) (h : ∀ v ∈ children, Fixed v) :
    Fixed (.rows children focus)
  | columns {children : List View} (focus : Nat) (h : ∀ v ∈ children, Fixed v) :
    Fixed (.columns children focus)

mutual

/-- The widths at which the leaves of a view are drawn. Rows that there is no room for are not drawn,
and neither are their leaves. -/
def leafWidths : View → Nat → Nat → List Nat
  | .empty, width, _ => [width]
  | .text _ _, width, _ => [width]
  | .code _, width, _ => [width]
  | .rows [] _, _, _ => []
  | .rows (first :: rest) focus, width, height =>
    let n := rest.length + 1
    let room := (signedWord height - n - 1).toNat
    first.leafWidths width room ++
      rowsLeafWidths rest focus width (signedWord height) n 1 (first.render width room)
  | .columns [] _, _, _ => []
  | .columns (first :: rest) _, width, height =>
    let each := width / (rest.length + 1)
    first.leafWidths each height ++ columnsLeafWidths rest each height
  | .flexible children _ gap, width, height => flexibleLeafWidths children gap width height

/-- The widths at which the leaves of further rows are drawn. -/
def rowsLeafWidths : List View → Nat → Nat → Int → Nat → Nat → Frame → List Nat
  | [], _, _, _, _, _, _ => []
  | row :: rest, focus, width, height, n, i, above =>
    let room := budget height above.lines.length n i
    if room ≤ 0 then []
    else row.leafWidths width room.toNat ++ rowsLeafWidths rest focus width height n (i + 1)
      (above.below (row.render width room.toNat) (i = focus))

/-- The widths at which the leaves of further columns of one width are drawn. -/
def columnsLeafWidths : List View → Nat → Nat → List Nat
  | [], _, _ => []
  | column :: rest, each, height =>
    column.leafWidths each height ++ columnsLeafWidths rest each height

/-- The widths at which the leaves of further columns as wide as their content are drawn. -/
def flexibleLeafWidths : List View → Nat → Nat → Nat → List Nat
  | [], _, _, _ => []
  | column :: rest, gap, width, height =>
    column.leafWidths (width - (gap + 1) * rest.length) height ++
      flexibleLeafWidths rest gap width height

end

/-- The view stays within every width at which its leaves have room for any cell. -/
def StaysWithin (v : View) : Prop :=
  ∀ width height, (∀ n ∈ v.leafWidths width height, 2 ≤ n) →
    (v.render width height).Contained width

variable {rest : List View} {focus width n i each : Nat} {height : Int} {above left : Frame}

theorem contained_renderRows (hrows : ∀ row ∈ rest, row.StaysWithin)
    (habove : above.Contained width)
    (hleaves : ∀ k ∈ rowsLeafWidths rest focus width height n i above, 2 ≤ k) :
    (renderRows rest focus width height n i above).Contained width := by
  induction rest generalizing i above with
  | nil => exact habove
  | cons row rest ih =>
    obtain ⟨hrow, hrest⟩ := List.forall_mem_cons.1 hrows
    rw [rowsLeafWidths] at hleaves
    rw [renderRows_cons]
    split
    · exact habove
    · rename_i hroom
      rw [if_neg hroom, List.forall_mem_append] at hleaves
      exact ih hrest (habove.below (hrow _ _ hleaves.1) _) hleaves.2

theorem contained_renderColumns {height : Nat} (hcolumns : ∀ column ∈ rest, column.StaysWithin)
    (hleft : left.Contained n) (hleaves : ∀ k ∈ columnsLeafWidths rest each height, 2 ≤ k) :
    (renderColumns rest each height left).Contained (n + each * rest.length) := by
  induction rest generalizing n left with
  | nil => exact hleft
  | cons column rest ih =>
    obtain ⟨hcolumn, hrest⟩ := List.forall_mem_cons.1 hcolumns
    rw [columnsLeafWidths, List.forall_mem_append] at hleaves
    rw [renderColumns_cons, List.length_cons, Nat.mul_succ, Nat.add_comm (each * rest.length),
      ← Nat.add_assoc]
    exact ih hrest (hleft.beside (hcolumn _ _ hleaves.1)) hleaves.2

theorem Fixed.staysWithin {v : View} (hv : v.Fixed) : v.StaysWithin := by
  intro width height hleaves
  induction hv generalizing width height with
  | empty => exact Frame.contained_empty width
  | text spans dotAfter =>
    have hwidth : 2 ≤ width := hleaves width List.mem_cons_self
    have hcontained := contained_renderText spans dotAfter width height
    rwa [Nat.max_eq_left hwidth] at hcontained
  | code layout =>
    have hwidth : 2 ≤ width := hleaves width List.mem_cons_self
    have hcontained := layout.contained_render width height
    rwa [Nat.max_eq_left hwidth] at hcontained
  | @rows children focus _ ih =>
    cases children with
    | nil => exact Frame.contained_empty width
    | cons first rest =>
      obtain ⟨hfirst, hrest⟩ := List.forall_mem_cons.1 ih
      rw [leafWidths, List.forall_mem_append] at hleaves
      rw [render_rows_cons]
      exact contained_renderRows hrest (hfirst _ _ hleaves.1) hleaves.2
  | @columns children focus _ ih =>
    cases children with
    | nil => exact Frame.contained_empty width
    | cons first rest =>
      obtain ⟨hfirst, hrest⟩ := List.forall_mem_cons.1 ih
      rw [leafWidths, List.forall_mem_append] at hleaves
      rw [render_columns_cons]
      refine (contained_renderColumns hrest (hfirst _ _ hleaves.1) hleaves.2).mono ?_
      -- all columns together are as wide as one of them, times their number
      have hshare := Nat.div_mul_le_self width (rest.length + 1)
      rw [Nat.mul_succ, Nat.add_comm] at hshare
      exact hshare

/-- **Views stay inside their width.** Whatever texts, code areas, rows and equal columns are nested
in each other, no line of the frame is wider than the width that the view was drawn for, if all
leaves that are drawn have at least two columns. -/
theorem lineWidth_render_le {v : View} (hv : v.Fixed) {width height : Nat}
    (hleaves : ∀ n ∈ v.leafWidths width height, 2 ≤ n) :
    ∀ line ∈ (v.render width height).lines, Frame.lineWidth line ≤ width :=
  fun _ hline => (hv.staysWithin width height hleaves).lineWidth_le hline

/-- Three narrow columns above a long text, and wide characters beside them. -/
def grid : View :=
  columns [rows [columns [.plain "a", .plain "b", .plain "c"] 0, .plain "0123456789ab"] 1,
    .plain "界面"] 0

theorem fixed_grid : grid.Fixed := by
  have htext (s : String) : (plain s).Fixed := .text _ _
  have hletters : (columns [.plain "a", .plain "b", .plain "c"] 0).Fixed :=
    .columns 0 (by simp [htext])
  have hleft : (rows [columns [.plain "a", .plain "b", .plain "c"] 0,
      .plain "0123456789ab"] 1).Fixed :=
    .rows 1 (by simp [htext, hletters])
  exact .columns 0 (by simp [htext, hleft])

/-- The columns on the left were drawn for nine of the ten columns that they have, but the long text
below them fills all ten. -/
theorem lineWidth_render_le_grid :
    grid.leafWidths 20 9 = [3, 3, 3, 10, 10] ∧
      ∀ line ∈ (grid.render 20 9).lines, Frame.lineWidth line ≤ 20 := by
  have hleaves : grid.leafWidths 20 9 = [3, 3, 3, 10, 10] := by decide +kernel
  exact ⟨hleaves, lineWidth_render_le fixed_grid (by rw [hleaves]; decide)⟩

end View

end TerminalUI
