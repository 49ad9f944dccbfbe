import TerminalUI.Proofs.View.RightPrompt
import TerminalUI.Widget.ListBox

/-!
# How a list box shows its items

The view of a list box is one text: the items with line breaks between them, and the dot behind a
number of spans. Since an item always starts on a line of its own, it is laid out there as it is by
itself (`StyledText.layout`), whether it is empty, wraps or has line breaks of its own. An attribute
changes the style of the cells and nothing else.

* `StyledText.layout_withAttribute` : the layout of a text with an attribute;
* `ListBox.writeSpans_step` : what the next item adds to what is written;
* `ListBox.exists_render_view` : **the items below each other**, the selected one in inverse and
  with the dot before it.
-/

namespace TerminalUI

/-- A frame that has room keeps all of its lines. -/
theorem Frame.trim_of_le {f : Frame} {height : Nat} (hroom : f.lines.length ≤ height)
    (hdot : f.dot.line < f.lines.length) : f.trim 0 height = f := by
  have hlines : min height f.lines.length = f.lines.length := Nat.min_eq_right hroom
  have hline : min f.dot.line (f.lines.length - 1) = f.dot.line := Nat.min_eq_left (by omega)
  simp only [trim, hlines, Nat.zero_min, List.take_length, List.drop_zero, Nat.sub_zero, hline]

/-! ### Attributes -/

/-- The cell with an attribute turned on. -/
def Cell.withAttribute (c : Cell) (a : Attribute) : Cell :=
  { c with style := c.style.withAttribute a }

theorem Style.withAttribute_comm (s : Style) (a b : Attribute) :
    (s.withAttribute a).withAttribute b = (s.withAttribute b).withAttribute a := by
  cases a <;> cases b <;> rfl

namespace Writer

variable (w : Writer) (a : Attribute)

/-- A writer that has written all of its cells with one more attribute. -/
def withAttribute : Writer :=
  { w with
    above := w.above.map (·.map (·.withAttribute a))
    line := w.line.map (·.withAttribute a) }

theorem withAttribute_newLine : (w.withAttribute a).newLine = w.newLine.withAttribute a := by
  simp only [newLine, withAttribute, List.map_cons, List.map_reverse, List.map_nil]

theorem withAttribute_cell (c : Cell) (width : Nat) :
    (w.withAttribute a).cell (c.withAttribute a) width = (w.cell c width).withAttribute a := by
  have hwraps : ((w.withAttribute a).column > 0 ∧
      (w.withAttribute a).column + width > (w.withAttribute a).width) =
      (w.column > 0 ∧ w.column + width > w.width) := rfl
  unfold cell
  simp only [hwraps, withAttribute_newLine]
  split <;> rfl

theorem withAttribute_cluster (g : String) (style : Style) :
    (w.withAttribute a).cluster g (style.withAttribute a) =
      (w.cluster g style).withAttribute a := by
  unfold cluster
  split
  · exact w.withAttribute_newLine a
  · split
    · rename_i caret _
      -- the caret form is in inverse anyway, and attributes come in any order
      rw [Style.withAttribute_comm]
      exact w.withAttribute_cell a ⟨caret, style.withAttribute .inverse⟩ _
    · exact w.withAttribute_cell a ⟨g, style⟩ _

theorem withAttribute_styled (t : StyledText) :
    (w.withAttribute a).styled (t.withAttribute a) = (w.styled t).withAttribute a := by
  rw [styled, StyledText.withAttribute, StyledText.restyle, List.foldl_map]
  exact List.foldl_hom (withAttribute · a) fun w seg =>
    List.foldl_hom (withAttribute · a) fun w g => w.withAttribute_cluster a g seg.style

theorem lines_withAttribute :
    (w.withAttribute a).finish.lines = w.finish.lines.map (·.map (·.withAttribute a)) := by
  simp only [finish, withAttribute, List.map_reverse, List.map_cons]

end Writer

namespace StyledText

/-- The lines of a text that is laid out by itself. -/
def layout (t : StyledText) (width : Nat) : List (List Cell) :=
  ((Writer.ofWidth width).styled t).finish.lines

/-- The layout of a text is what is drawn of it, as far as there is room. -/
theorem lines_render_styled (t : StyledText) (width height : Nat) :
    ((View.styled t).render width height).lines = (t.layout width).take height := by
  have hlines : ((View.styled t).render width height).lines =
      ((t.layout width).take (min height (t.layout width).length)).drop 0 := by
    simp only [View.styled, View.render_text, View.renderText, View.writeSpans, Frame.trim,
      Nat.zero_min]
    rfl
  rw [hlines, List.drop_zero, ← List.take_eq_take_min]

theorem layout_ne_nil (t : StyledText) (width : Nat) : t.layout width ≠ [] := by
  simp [layout, Writer.finish]

/-- **An attribute changes the cells of a layout**, each of them, and not where they are. -/
theorem layout_withAttribute (t : StyledText) (a : Attribute) (width : Nat) :
    (t.withAttribute a).layout width = (t.layout width).map (·.map (·.withAttribute a)) := by
  have hstart : Writer.ofWidth width = (Writer.ofWidth width).withAttribute a := rfl
  rw [layout, hstart, Writer.withAttribute_styled, Writer.lines_withAttribute, layout]

end StyledText

/-! ### Items -/

namespace ListBox

open View

variable {d j width : Nat} {w : Writer} {t item : StyledText} {ts before after : List StyledText}

/-- How item number `j` is shown if number `d` is selected. -/
def shownAs (d j : Nat) (t : StyledText) : StyledText :=
  if j = d then t.withAttribute .inverse else t

/-- What is written after a text on a line of its own, below what a writer has written. -/
def writeBelow (w : Writer) (dot : Position) (t : StyledText) : Writer :=
  ((Writer.ofWidth w.width).styled t).onto { w with dot }

theorem width_writeBelow (w : Writer) (dot : Position) (t : StyledText) :
    (writeBelow w dot t).width = w.width :=
  CodeLayout.width_styled_ofWidth w.width t

theorem lines_writeBelow (w : Writer) (dot : Position) (t : StyledText) :
    (writeBelow w dot t).finish.lines = w.finish.lines ++ t.layout w.width :=
  Writer.lines_onto _ _

theorem dot_writeBelow (w : Writer) (dot : Position) (t : StyledText) :
    (writeBelow w dot t).dot = dot := rfl

theorem styled_lineBreak (w : Writer) : w.styled (.plain "\n") = w.newLine := by
  have hsegments : (StyledText.plain "\n").segments = [⟨.plain, "\n"⟩] := by decide
  have hclusters : clusters "\n" = ["\n"] := by decide
  rw [Writer.styled, hsegments, List.foldl_cons, List.foldl_nil, Writer.text, hclusters,
    List.foldl_cons, List.foldl_nil]
  rfl

/-- **What one more item adds.** It starts a line, and takes the dot if it is selected. -/
theorem writeSpans_step (hj : 0 < j) :
    writeSpans (2 * d) (2 * j - 1) w (spansFrom d j (t :: ts)) =
      writeSpans (2 * d) (2 * (j + 1) - 1)
        (writeBelow w (if j = d then ⟨w.finish.lines.length, 0⟩ else w.dot) (shownAs d j t))
        (spansFrom d (j + 1) ts) := by
  have hspans : spansFrom d j (t :: ts) =
      .plain "\n" :: shownAs d j t :: spansFrom d (j + 1) ts := by
    rw [spansFrom, if_neg (by omega)]
    rfl
  -- behind the line break, the writer is that of an empty text below what was written
  have hstart : (if 2 * j - 1 + 1 = 2 * d then w.newLine.setDot else w.newLine) =
      (Writer.ofWidth w.width).onto
        { w with dot := if j = d then ⟨w.finish.lines.length, 0⟩ else w.dot } := by
    by_cases hd : j = d
    · have hlength : w.finish.lines.length = w.above.length + 1 := by simp [Writer.finish]
      rw [if_pos (by omega), if_pos hd, hlength]
      rfl
    · rw [if_neg (by omega), if_neg hd]
      rfl
  -- the dot is never behind an odd number of spans, so no line break takes it from an item
  have hodd : ¬ 2 * j - 1 + 1 + 1 = 2 * d := by omega
  have hnext : 2 * (j + 1) - 1 = 2 * j - 1 + 1 + 1 := by omega
  rw [hspans, writeSpans, writeSpans, styled_lineBreak, hstart, Writer.onto_styled, if_neg hodd,
    hnext]
  rfl

/-- The selected item is not among those that follow: they are written below each other. -/
theorem writeSpans_after (hd : d < j) (hw : w.width = width) :
    (writeSpans (2 * d) (2 * j - 1) w (spansFrom d j after)).finish =
      ⟨width, w.finish.lines ++ after.flatMap (·.layout width), w.dot⟩ := by
  induction after generalizing j w with
  | nil =>
    rw [spansFrom, writeSpans, List.flatMap_nil, List.append_nil, ← hw]
    rfl
  | cons t after ih =>
    have hne : j ≠ d := by omega
    rw [writeSpans_step (by omega), if_neg hne, shownAs, if_neg hne,
      ih (by omega) (by rw [width_writeBelow, hw]), lines_writeBelow, dot_writeBelow, hw,
      List.append_assoc, List.flatMap_cons]

/-- The selected item is among those that follow. -/
theorem writeSpans_around (hj : 0 < j) (hd : j + before.length = d) (hw : w.width = width) :
    (writeSpans (2 * d) (2 * j - 1) w (spansFrom d j (before ++ item :: after))).finish =
      ⟨width, w.finish.lines ++ before.flatMap (·.layout width) ++
        (item.withAttribute .inverse).layout width ++ after.flatMap (·.layout width),
        ⟨(w.finish.lines ++ before.flatMap (·.layout width)).length, 0⟩⟩ := by
  induction before generalizing j w with
  | nil =>
    have heq : j = d := hd
    rw [List.nil_append, writeSpans_step hj, if_pos heq, shownAs, if_pos heq,
      writeSpans_after (by omega) (by rw [width_writeBelow, hw]), lines_writeBelow, dot_writeBelow,
      hw, List.flatMap_nil, List.append_nil]
  | cons t before ih =>
    have hne : j ≠ d := by
      rw [List.length_cons] at hd
      omega
    rw [List.cons_append, writeSpans_step hj, if_neg hne, shownAs, if_neg hne,
      ih (by omega) (by rw [← hd, List.length_cons]; omega) (by rw [width_writeBelow, hw]),
      lines_writeBelow, hw, List.flatMap_cons, List.append_assoc w.finish.lines]

/-- The frame of items, of which one is selected, if there is room for all of them. -/
def frameOf (width : Nat) (before : List StyledText) (item : StyledText)
    (after : List StyledText) : Frame where
  width := width
  lines := before.flatMap (·.layout width) ++
    (item.layout width).map (·.map (·.withAttribute .inverse)) ++ after.flatMap (·.layout width)
  dot := ⟨(before.flatMap (·.layout width)).length, 0⟩

/-- The dot is on a line, since the selected item has at least one. -/
theorem dot_frameOf_lt (width : Nat) (before : List StyledText) (item : StyledText)
    (after : List StyledText) : (frameOf width before item after).dot.line <
      (frameOf width before item after).lines.length := by
  have hpos := List.length_pos_iff.2 (item.layout_ne_nil width)
  simp only [frameOf, List.length_append, List.length_map]
  omega

theorem finish_writeSpans (hd : before.length = d) (width : Nat) :
    (writeSpans (2 * d) 0 (.ofWidth width) (spansFrom d 0 (before ++ item :: after))).finish =
      frameOf width before item after := by
  have hspans (t : StyledText) (ts : List StyledText) :
      spansFrom d 0 (t :: ts) = shownAs d 0 t :: spansFrom d 1 ts := rfl
  have hfirst (t : StyledText) (ts : List StyledText) :
      writeSpans (2 * d) 0 (.ofWidth width) (shownAs d 0 t :: ts) =
        writeSpans (2 * d) (2 * 1 - 1) ((Writer.ofWidth width).styled (shownAs d 0 t)) ts := by
    rw [writeSpans, if_neg (by omega)]
  have hwidth (t : StyledText) : ((Writer.ofWidth width).styled t).width = width :=
    CodeLayout.width_styled_ofWidth width t
  rw [frameOf, ← StyledText.layout_withAttribute]
  -- the first item has no line break in front of it, and the dot is at its start to begin with
  cases before with
  | nil =>
    have hzero : 0 = d := hd
    rw [List.nil_append, hspans, hfirst, writeSpans_after (by omega) (hwidth _), Writer.dot_styled,
      shownAs, if_pos hzero]
    rfl
  | cons t before =>
    have hne : 0 ≠ d := by
      rw [List.length_cons] at hd
      omega
    rw [List.cons_append, hspans, hfirst,
      writeSpans_around (by omega) (by rw [← hd, List.length_cons]; omega) (hwidth _), shownAs,
      if_neg hne, List.flatMap_cons]
    rfl

/-- **The items below each other.** The items of a list are drawn as each of them is by itself, one
below the other. The selected one, which is that of the index brought into the list, is in inverse,
and the dot is at its start. Only what does not fit the height is cut. -/
theorem exists_render_view {l : Items} (hne : l.shown ≠ []) (i : Nat) :
    ∃ before item after, l.shown = before ++ item :: after ∧ before.length = clamp i l.size ∧
      ∀ width height,
        (view (some l) i).render width height = (frameOf width before item after).trim 0 height ∧
        ((frameOf width before item after).lines.length ≤ height →
          (view (some l) i).render width height = frameOf width before item after) := by
  have hpos : 0 < l.shown.length := List.length_pos_iff.2 hne
  have hd : clamp i l.size < l.shown.length := by
    rw [clamp, Items.size]
    omega
  have hsplit : l.shown = l.shown.take (clamp i l.size) ++
      l.shown[clamp i l.size] :: l.shown.drop (clamp i l.size + 1) := by
    rw [List.getElem_cons_drop, List.take_append_drop]
  have hlength : (l.shown.take (clamp i l.size)).length = clamp i l.size :=
    List.length_take_of_le (Nat.le_of_lt hd)
  refine ⟨_, _, _, hsplit, hlength, fun width height => ?_⟩
  have hrender : (view (some l) i).render width height =
      (frameOf width (l.shown.take (clamp i l.size)) l.shown[clamp i l.size]
        (l.shown.drop (clamp i l.size + 1))).trim 0 height := by
    rw [← finish_writeSpans hlength, ← hsplit]
    rfl
  exact ⟨hrender, fun hroom => hrender.trans (Frame.trim_of_le hroom (dot_frameOf_lt ..))⟩

end ListBox

end TerminalUI
