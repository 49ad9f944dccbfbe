import TerminalUI.Proofs.View.Bounds
import TerminalUI.Terminal.Drawing

/-!
# Control characters in frames

Which control characters of the texts that are written come to be in the cells of a frame, and so
are sent to the terminal. Those of ASCII never do: the writer breaks the line at them or shows their
caret form. The control characters from U+0080 to U+009F (`isC1`) have no caret form, and each stands
in a cell of its own, as it was written.

* `Frame.cells_writeAll` : a frame has one cell for each cluster that is not a line break, in order;
* `Cell.Shown.isC1` : which control characters can be in a cell;
* `View.shows_render` : the cells of every view are those of clusters;
* `Writer.writeAll_controls` : what becomes of every control character of the input, when a frame
  has any, and which the terminal is sent;
* `Writer.text_introducer` : a text that sends the terminal the start of a control sequence.
-/

namespace TerminalUI

/-- The control characters beyond ASCII, U+0080 to U+009F. -/
def isC1 (c : Char) : Bool := 0x80 ≤ c.toNat && c.toNat ≤ 0x9F

theorem isControl_of_isC1 {c : Char} (h : isC1 c = true) : isControl c = true := by
  simp only [isC1, isControl, Bool.and_eq_true, Bool.or_eq_true, decide_eq_true_eq] at h ⊢
  omega

theorem isLineBreak_eq_false_of_isC1 {g : String} {c : Char} (hc : c ∈ g.toList)
    (hc1 : isC1 c = true) : isLineBreak g = false := by
  cases hbreak : isLineBreak g
  · rfl
  · simp only [isLineBreak, Bool.or_eq_true, beq_iff_eq] at hbreak
    have hends : c = '\r' ∨ c = '\n' := by
      rcases hbreak with rfl | rfl
      · exact .inr (List.mem_singleton.1 hc)
      · simpa using hc
    rcases hends with rfl | rfl <;> cases hc1

/-- The control characters of ASCII are those that have a caret form. -/
theorem caretForm_singleton (c : Char) :
    caretForm (String.singleton c) =
      if isControl c && !isC1 c then some (String.ofList ['^', Char.ofNat (c.toNat ^^^ 0x40)])
      else none := by
  have hascii : (decide (c.toNat < 0x20) || c.toNat == 0x7F) = (isControl c && !isC1 c) := by
    rw [Bool.eq_iff_iff]
    simp only [isControl, isC1, Bool.and_eq_true, Bool.or_eq_true, decide_eq_true_eq, beq_iff_eq,
      Bool.not_eq_true', Bool.and_eq_false_iff, decide_eq_false_iff_not]
    omega
  unfold caretForm
  rw [String.toList_singleton, ← hascii]

/-- There is no control character in a caret form. -/
theorem isControl_of_mem_caretForm {g caret : String} (h : caretForm g = some caret) {c : Char}
    (hc : c ∈ caret.toList) : isControl c = false := by
  have hascii : ∀ n < 128, n < 0x20 ∨ n = 0x7F → isControl (Char.ofNat (n ^^^ 0x40)) = false := by
    decide +kernel
  obtain ⟨n, hn, hcontrol, rfl⟩ := exists_of_caretForm_eq_some h
  rw [String.toList_ofList] at hc
  rcases List.mem_cons.1 hc with rfl | hc
  · rfl
  · rw [List.mem_singleton.1 hc]
    exact hascii n hn hcontrol

/-- How the cluster of a control character is shown, unless it is a line break. -/
theorem Cell.shown?_of_isControl {s g : String} (hg : g ∈ clusters s) {c : Char}
    (hc : c ∈ g.toList) (hcontrol : isControl c = true) (hbreak : isLineBreak g = false)
    (style : Style) :
    g = String.singleton c ∧ Cell.shown? g style = some (if isC1 c then ⟨String.singleton c, style⟩
      else ⟨String.ofList ['^', Char.ofNat (c.toNat ^^^ 0x40)], style.withAttribute .inverse⟩) := by
  rcases eq_or_eq_of_mem_clusters hg hc hcontrol with rfl | rfl
  · refine ⟨rfl, ?_⟩
    unfold Cell.shown?
    rw [hbreak, caretForm_singleton, hcontrol]
    cases isC1 c <;> rfl
  · cases hbreak

/-- A control character in a cell is beyond ASCII, and the cell shows it as it was written. -/
theorem Cell.isC1_of_shown? {s g : String} (hg : g ∈ clusters s) {style : Style} {cell : Cell}
    (hcell : Cell.shown? g style = some cell) {c : Char} (hc : c ∈ cell.text.toList)
    (hcontrol : isControl c = true) :
    isC1 c = true ∧ g = String.singleton c ∧ cell = ⟨String.singleton c, style⟩ := by
  have hbreak : isLineBreak g = false := by
    cases hbreak : isLineBreak g
    · rfl
    · simp [Cell.shown?, hbreak] at hcell
  have hplain : caretForm g = none := by
    cases hcaret : caretForm g with
    | none => rfl
    | some caret =>
      simp only [Cell.shown?, hbreak, hcaret] at hcell
      cases hcell
      rw [isControl_of_mem_caretForm hcaret hc] at hcontrol
      cases hcontrol
  simp only [Cell.shown?, hbreak, hplain] at hcell
  cases hcell
  obtain ⟨rfl, -⟩ := Cell.shown?_of_isControl hg hc hcontrol hbreak style
  rw [caretForm_singleton, hcontrol] at hplain
  cases hc1 : isC1 c
  · rw [hc1] at hplain
    cases hplain
  · exact ⟨rfl, rfl, rfl⟩

theorem Cell.Shown.isC1 {cell : Cell} (h : cell.Shown) {c : Char} (hc : c ∈ cell.text.toList)
    (hcontrol : isControl c = true) : TerminalUI.isC1 c = true := by
  obtain ⟨s, g, style, hg, hcell⟩ := h
  exact (Cell.isC1_of_shown? hg hcell hc hcontrol).1

/-- The cells that show a run of text, those of its clusters that are not line breaks. -/
def Segment.cells (seg : Segment) : List Cell :=
  (clusters seg.text).flatMap fun g => (Cell.shown? g seg.style).toList

namespace Segment

variable {seg : Segment} {cell : Cell} {c : Char}

theorem mem_cells_iff :
    cell ∈ seg.cells ↔ ∃ g ∈ clusters seg.text, Cell.shown? g seg.style = some cell := by
  simp only [cells, List.mem_flatMap, Option.mem_toList]

theorem exists_control_mem_cells_iff :
    (∃ cell ∈ seg.cells, ∃ c ∈ cell.text.toList, isControl c = true) ↔
      ∃ c ∈ seg.text.toList, isC1 c = true := by
  constructor
  · rintro ⟨cell, hcell, c, hc, hcontrol⟩
    obtain ⟨g, hg, hshown⟩ := mem_cells_iff.1 hcell
    obtain ⟨hc1, rfl, rfl⟩ := Cell.isC1_of_shown? hg hshown hc hcontrol
    exact ⟨c, mem_toList_iff_exists_mem_clusters.2 ⟨_, hg, hc⟩, hc1⟩
  · rintro ⟨c, hc, hc1⟩
    obtain ⟨g, hg, hc⟩ := mem_toList_iff_exists_mem_clusters.1 hc
    have hcontrol := isControl_of_isC1 hc1
    obtain ⟨rfl, hshown⟩ := Cell.shown?_of_isControl hg hc hcontrol
      (isLineBreak_eq_false_of_isC1 hc hc1) seg.style
    rw [if_pos hc1] at hshown
    exact ⟨_, mem_cells_iff.2 ⟨_, hg, hshown⟩, c, hc, hcontrol⟩

end Segment

/-- All cells of a frame, line after line. -/
def Frame.cells (f : Frame) : List Cell := f.lines.flatten

/-! ### Everything that is written -/

/-- What can be done to a writer. -/
inductive Write where
  | text (s : String) (style : Style)
  | styled (t : StyledText)
  | blanks (n : Nat) (style : Style)
  | newLine
  | setDot
  deriving DecidableEq, Repr

/-- The runs of text that are written. -/
def Write.segments : Write → List Segment
  | .text s style => [⟨style, s⟩]
  | .styled t => t.segments
  | .blanks n style => List.replicate n ⟨style, " "⟩
  | .newLine | .setDot => []

namespace Writer

/-- Does one thing to a writer. -/
def write (w : Writer) : Write → Writer
  | .text s style => w.text s style
  | .styled t => w.styled t
  | .blanks n style => w.blanks n style
  | .newLine => w.newLine
  | .setDot => w.setDot

/-- Does one thing after another to a writer. -/
def writeAll (w : Writer) (writes : List Write) : Writer := writes.foldl write w

/-- The cells that were written. -/
def cells (w : Writer) : List Cell := w.finish.cells

variable (w : Writer)

theorem cells_newLine : w.newLine.cells = w.cells := by
  simp [cells, Frame.cells, finish, newLine]

theorem cells_cell (c : Cell) (width : Nat) : (w.cell c width).cells = w.cells ++ [c] := by
  have hpush (w : Writer) (column : Nat) :
      cells { w with line := c :: w.line, column } = w.cells ++ [c] := by
    simp [cells, Frame.cells, finish]
  unfold cell
  dsimp only
  split
  · rw [hpush, cells_newLine]
  · exact hpush w _

/-- What is written in several steps is what the steps write. -/
theorem cells_foldl {β : Type} {f : Writer → β → Writer} {shown : β → List Cell} {l : List β}
    (h : ∀ w, ∀ b ∈ l, (f w b).cells = w.cells ++ shown b) :
    (l.foldl f w).cells = w.cells ++ l.flatMap shown := by
  induction l generalizing w with
  | nil => simp
  | cons b l ih =>
    obtain ⟨hb, hl⟩ := List.forall_mem_cons.1 fun b hb w => h w b hb
    rw [List.foldl_cons, ih _ fun w b hb => hl b hb w, hb, List.append_assoc, List.flatMap_cons]

theorem cells_cluster {s g : String} (hg : g ∈ clusters s) (style : Style) :
    (w.cluster g style).cells = w.cells ++ (Cell.shown? g style).toList := by
  rw [cluster_eq hg]
  cases Cell.shown? g style with
  | none => rw [Option.toList_none, List.append_nil, cells_newLine]
  | some c => exact w.cells_cell c c.width

theorem cells_text (s : String) (style : Style) :
    (w.text s style).cells = w.cells ++ Segment.cells ⟨style, s⟩ :=
  w.cells_foldl fun w _ hg => w.cells_cluster hg style

theorem cells_write (write : Write) :
    (w.write write).cells = w.cells ++ write.segments.flatMap Segment.cells := by
  cases write with
  | text s style => simp [Writer.write, Write.segments, cells_text]
  | styled t => exact cells_foldl w fun w seg _ => cells_text w seg.text seg.style
  | blanks n style =>
    have hclusters : clusters " " = [" "] := by decide
    have hblank (w : Writer) :
        (w.cluster " " style).cells = w.cells ++ Segment.cells ⟨style, " "⟩ := by
      rw [w.cells_cluster (s := " ") (by decide) style, Segment.cells, hclusters,
        List.flatMap_singleton]
    rw [Writer.write, blanks, w.cells_foldl fun w _ _ => hblank w, Write.segments,
      List.flatMap_replicate, List.flatMap_replicate]
  | newLine => simp [Writer.write, Write.segments, cells_newLine]
  | setDot => simp [Writer.write, Write.segments, setDot, cells, finish, Frame.cells]

end Writer

/-- **A frame has one cell for each cluster that is not a line break**, in the order in which they
were written. -/
theorem Frame.cells_writeAll (width : Nat) (writes : List Write) :
    ((Writer.ofWidth width).writeAll writes).finish.cells =
      (writes.flatMap Write.segments).flatMap Segment.cells := by
  rw [List.flatMap_assoc]
  exact (Writer.ofWidth width).cells_foldl fun w write _ => w.cells_write write

/-! ### Views -/

namespace Frame

/-- Every cell of the frame shows a cluster of some text. -/
def Shows (f : Frame) : Prop := ∀ c ∈ f.cells, c.Shown

variable {f left right upper lower : Frame}

theorem shows_empty (width : Nat) : (empty width).Shows := by
  have hcells : (empty width).cells = [] := rfl
  intro c hc
  rw [hcells] at hc
  cases hc

theorem Shows.below (hupper : upper.Shows) (hlower : lower.Shows) (moveDot : Bool) :
    (upper.below lower moveDot).Shows := by
  intro c hc
  rw [cells, Frame.below, List.flatten_append, List.mem_append] at hc
  exact hc.elim (hupper c) (hlower c)

theorem Shows.trim (h : f.Shows) (low high : Nat) : (f.trim low high).Shows := by
  intro c hc
  obtain ⟨line, hline, hc⟩ := List.mem_flatten.1 hc
  exact h c (List.mem_flatten.2 ⟨line, List.mem_of_mem_take (List.mem_of_mem_drop hline), hc⟩)

/-- The cells of lines side by side are theirs and blanks. -/
theorem mem_or_of_mem_joinLines {width : Nat} {left right : List (List Cell)} {c : Cell}
    (hc : c ∈ (joinLines width left right).flatten) :
    c ∈ left.flatten ∨ c = .blank ∨ c ∈ right.flatten := by
  have hblanks {n : Nat} (h : c ∈ blanks n) : c = .blank := List.eq_of_mem_replicate h
  induction left generalizing right with
  | nil =>
    cases right with
    | nil => cases hc
    | cons r right =>
      obtain ⟨line, hline, hc⟩ := List.mem_flatten.1 hc
      obtain ⟨r, hr, rfl⟩ := List.mem_map.1 hline
      exact .inr ((List.mem_append.1 hc).imp hblanks fun hc => List.mem_flatten.2 ⟨r, hr, hc⟩)
  | cons l left ih =>
    cases right with
    | nil => exact .inl hc
    | cons r right =>
      simp only [joinLines, List.flatten_cons, List.mem_append] at hc ⊢
      rcases hc with ((hc | hc) | hc) | hc
      · exact .inl (.inl hc)
      · exact .inr (.inl (hblanks hc))
      · exact .inr (.inr (.inl hc))
      · rcases ih hc with hc | hc | hc
        · exact .inl (.inr hc)
        · exact .inr (.inl hc)
        · exact .inr (.inr (.inr hc))

theorem Shows.beside (hleft : left.Shows) (hright : right.Shows) : (left.beside right).Shows := by
  intro c hc
  rcases mem_or_of_mem_joinLines hc with hc | rfl | hc
  · exact hleft c hc
  · exact Cell.shown_blank {}
  · exact hright c hc

end Frame

namespace Writer

theorem kept_shows : Kept fun w => w.finish.Shows where
  setDot h := h
  newLine {w} h := by
    intro c hc
    change c ∈ w.newLine.cells at hc
    rw [cells_newLine] at hc
    exact h c hc
  cell {w} h c hc := by
    intro d hd
    change d ∈ (w.cell c c.width).cells at hd
    rw [cells_cell] at hd
    rcases List.mem_append.1 hd with hd | hd
    · exact h d hd
    · rw [List.mem_singleton.1 hd]
      exact hc

theorem shows_ofWidth (width : Nat) : (ofWidth width).finish.Shows := Frame.shows_empty width

end Writer

namespace View

theorem shows_renderRows {rest : List View} {focus width n i : Nat} {height : Int} {above : Frame}
    (hrows : ∀ row ∈ rest, ∀ width height, (row.render width height).Shows)
    (habove : above.Shows) : (renderRows rest focus width height n i above).Shows := by
  induction rest generalizing i above with
  | nil => exact habove
  | cons row rest ih =>
    obtain ⟨hrow, hrest⟩ := List.forall_mem_cons.1 hrows
    rw [renderRows_cons]
    split
    · exact habove
    · exact ih hrest (habove.below (hrow _ _) _)

theorem shows_renderColumns {rest : List View} {each height : Nat} {left : Frame}
    (hcolumns : ∀ column ∈ rest, ∀ width height, (column.render width height).Shows)
    (hleft : left.Shows) : (renderColumns rest each height left).Shows := by
  induction rest generalizing left with
  | nil => exact hleft
  | cons column rest ih =>
    obtain ⟨hcolumn, hrest⟩ := List.forall_mem_cons.1 hcolumns
    rw [renderColumns_cons]
    exact ih hrest (hleft.beside (hcolumn _ _))

theorem shows_renderFlexible {rest : List View} {gap width height : Nat} {isFirst : Bool}
    {left : Frame} (hcolumns : ∀ column ∈ rest, ∀ width height, (column.render width height).Shows)
    (hleft : left.Shows) : (renderFlexible rest gap width height isFirst left).Shows := by
  induction rest generalizing left isFirst with
  | nil => exact hleft
  | cons column rest ih =>
    obtain ⟨hcolumn, hrest⟩ := List.forall_mem_cons.1 hcolumns
    rw [renderFlexible_cons]
    refine ih hrest (Frame.Shows.beside ?_ (hcolumn _ _))
    split
    · exact hleft
    · exact hleft

/-- **The cells of every view are those of clusters**, and blanks. -/
theorem shows_render (v : View) (width height : Nat) : (v.render width height).Shows := by
  induction v using nested_induction generalizing width height with
  | empty => exact Frame.shows_empty width
  | text spans dotAfter =>
    exact (kept_writeSpans Writer.kept_shows dotAfter 0 (Writer.shows_ofWidth width) spans).trim 0
      height
  | code layout =>
    exact layout.kept_render Writer.kept_shows Frame.Shows id (fun low high h => h.trim low high)
      (Writer.shows_ofWidth width) height
  | rows children focus ih =>
    cases children with
    | nil => exact Frame.shows_empty width
    | cons first rest =>
      obtain ⟨hfirst, hrest⟩ := List.forall_mem_cons.1 ih
      exact shows_renderRows hrest (hfirst _ _)
  | columns children focus ih =>
    cases children with
    | nil => exact Frame.shows_empty width
    | cons first rest =>
      obtain ⟨hfirst, hrest⟩ := List.forall_mem_cons.1 ih
      exact shows_renderColumns hrest (hfirst _ _)
  | flexible children focus gap ih => exact shows_renderFlexible ih (Frame.shows_empty 0)

end View

/-! ### What is sent -/

namespace Drawing

theorem exists_of_print_mem_drawLine {current : Option Style} {line : List Cell} {text : String}
    (h : .print text ∈ drawLine current line) : ∃ c ∈ line, c.text = text := by
  induction line generalizing current with
  | nil => cases h
  | cons c line ih =>
    rw [drawLine, drawCell, List.mem_append, List.mem_append, List.mem_singleton] at h
    rcases h with (h | h) | h
    · split at h
      · cases h
      · simp [setStyle] at h
    · cases h
      exact ⟨c, List.mem_cons_self, rfl⟩
    · obtain ⟨d, hd, htext⟩ := ih h
      exact ⟨d, List.mem_cons_of_mem c hd, htext⟩

theorem exists_of_print_mem_drawLines {current : Option Style} {lines : List (List Cell)}
    {text : String} (h : .print text ∈ drawLines current lines) :
    ∃ c ∈ lines.flatten, c.text = text := by
  fun_induction drawLines current lines with
  | case1 => cases h
  | case2 =>
    rw [List.flatten_singleton]
    exact exists_of_print_mem_drawLine h
  | case3 current line next lines ih =>
    rw [List.flatten_cons]
    rcases List.mem_append.1 h with h | h
    · obtain ⟨c, hc, htext⟩ := exists_of_print_mem_drawLine h
      exact ⟨c, List.mem_append_left _ hc, htext⟩
    · rcases List.mem_cons.1 h with h | h
      · cases h
      · obtain ⟨c, hc, htext⟩ := ih h
        exact ⟨c, List.mem_append_right _ hc, htext⟩

/-- All that is printed when a frame is drawn is the text of its cells. -/
theorem exists_of_print_mem_draw {line : Nat} {f : Frame} {text : String}
    (h : .print text ∈ draw line f) : ∃ c ∈ f.cells, c.text = text := by
  have hup (n : Nat) : .print text ∉ moveUp n := by
    unfold moveUp
    split <;> simp
  have hlines : .print text ∈ drawLines none f.lines := by
    simpa [draw, hup] using h
  exact exists_of_print_mem_drawLines hlines

end Drawing

/-- The only control characters that are sent for a frame are those beyond ASCII. -/
theorem Frame.Shows.isC1_of_print {f : Frame} (h : f.Shows) {line : Nat} {text : String}
    (hprint : .print text ∈ Drawing.draw line f) {c : Char} (hc : c ∈ text.toList)
    (hcontrol : isControl c = true) : isC1 c = true := by
  obtain ⟨cell, hcell, rfl⟩ := Drawing.exists_of_print_mem_draw hprint
  exact (h cell hcell).isC1 hc hcontrol

/-- **What becomes of control characters.** Whatever is written at whatever width, the frame has one
cell for each cluster that is not a line break. A control character of the input is in a line break
or in a cell, where it is shown in caret form if it is in ASCII and as it is if not. So a frame has
control characters in its cells exactly if one beyond ASCII was written, and no others are ever sent
to the terminal, for this frame or for that of any view. -/
theorem Writer.writeAll_controls (width : Nat) (writes : List Write) :
    let frame := ((ofWidth width).writeAll writes).finish
    let written := writes.flatMap Write.segments
    frame.cells = written.flatMap Segment.cells ∧
    (∀ seg ∈ written, ∀ g ∈ clusters seg.text, ∀ c ∈ g.toList, isControl c = true →
      isLineBreak g = true ∨
      Cell.shown? g seg.style = some (if isC1 c then ⟨String.singleton c, seg.style⟩
        else ⟨String.ofList ['^', Char.ofNat (c.toNat ^^^ 0x40)],
          seg.style.withAttribute .inverse⟩)) ∧
    (∀ cell ∈ frame.cells, ∀ c ∈ cell.text.toList, isControl c = true →
      isC1 c = true ∧ cell.text = String.singleton c) ∧
    ((∃ cell ∈ frame.cells, ∃ c ∈ cell.text.toList, isControl c = true) ↔
      ∃ seg ∈ written, ∃ c ∈ seg.text.toList, isC1 c = true) ∧
    (∀ line text, .print text ∈ Drawing.draw line frame →
      ∀ c ∈ text.toList, isControl c = true → isC1 c = true) ∧
    (∀ (view : View) height line text, .print text ∈ Drawing.draw line (view.render width height) →
      ∀ c ∈ text.toList, isControl c = true → isC1 c = true) := by
  intro frame written
  have hcells : frame.cells = written.flatMap Segment.cells := Frame.cells_writeAll width writes
  have hmem {cell : Cell} : cell ∈ frame.cells ↔ ∃ seg ∈ written, cell ∈ seg.cells := by
    rw [hcells, List.mem_flatMap]
  have hshows : frame.Shows := by
    intro cell hcell
    obtain ⟨seg, -, hcell⟩ := hmem.1 hcell
    obtain ⟨g, hg, hshown⟩ := Segment.mem_cells_iff.1 hcell
    exact ⟨seg.text, g, seg.style, hg, hshown⟩
  refine ⟨hcells, ?_, ?_, ?_, fun _ _ hprint _ => hshows.isC1_of_print hprint,
    fun view height _ _ hprint _ => (view.shows_render width height).isC1_of_print hprint⟩
  · intro seg _ g hg c hc hcontrol
    cases hbreak : isLineBreak g
    · exact .inr (Cell.shown?_of_isControl hg hc hcontrol hbreak seg.style).2
    · exact .inl rfl
  · intro cell hcell c hc hcontrol
    obtain ⟨s, g, style, hg, hshown⟩ := hshows cell hcell
    obtain ⟨hc1, -, rfl⟩ := Cell.isC1_of_shown? hg hshown hc hcontrol
    exact ⟨hc1, rfl⟩
  · constructor
    · rintro ⟨cell, hcell, hcontrol⟩
      obtain ⟨seg, hseg, hcell⟩ := hmem.1 hcell
      exact ⟨seg, hseg, Segment.exists_control_mem_cells_iff.1 ⟨cell, hcell, hcontrol⟩⟩
    · rintro ⟨seg, hseg, hc1⟩
      obtain ⟨cell, hcell, hcontrol⟩ := Segment.exists_control_mem_cells_iff.2 hc1
      exact ⟨cell, hmem.2 ⟨seg, hseg, hcell⟩, hcontrol⟩

/-- The terminal is sent a control sequence introducer that was in a text, and what follows it, which
together clear the screen. -/
theorem Writer.text_introducer :
    let frame := ((ofWidth 10).text "\u009b2J" {}).finish
    frame.lines = [[⟨"\u009b", {}⟩, ⟨"2", {}⟩, ⟨"J", {}⟩]] ∧
      isControl '\u009b' = true ∧ .print "\u009b" ∈ Drawing.draw 0 frame := by
  decide +kernel

end TerminalUI
