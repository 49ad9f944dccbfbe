import Mathlib.Data.List.Basic
import TerminalUI.Proofs.Frame.Controls
import TerminalUI.Proofs.View.Taller
import TerminalUI.Proofs.View.Viewport
import TerminalUI.Proofs.View.Widths

/-!
# The right prompt of a code area

When a right prompt fits on the last line of code. There is room for it if a blank and the columns
that the text is counted to fill are left on that line (`CodeLayout.HasRoom`). An ASCII control
character is counted as one column but shown in two, as its caret form is.

* `StyledText.lineWidth_cells` : the columns that a text fills, against those it is counted to fill;
* `Writer.put_of_le`, `Writer.length_above_lt_put` : cells that fit go on the current line, and of
  cells that do not, some go to another;
* `CodeLayout.lines_fullFrame` : tips are written on lines of their own, whatever is above them;
* `CodeLayout.rightPrompt_fits_iff` : **when a right prompt fits**: it stands at the right end of the
  last line of code and changes nothing else, unless there is room for it by its count and an ASCII
  control character in it;
* `CodeLayout.rightPrompt_breaks_line` : a right prompt that gets a line of its own.
-/

namespace TerminalUI

/-! ### The columns of a text -/

/-- A text that has a caret form is one control character of ASCII. -/
theorem exists_eq_singleton_of_caretForm {g caret : String} (h : caretForm g = some caret) :
    ∃ c, g = String.singleton c ∧ (c.toNat < 0x20 ∨ c.toNat = 0x7F) := by
  unfold caretForm at h
  split at h
  · rename_i c hc
    split at h
    · rename_i hcontrol
      refine ⟨c, String.toList_inj.1 (by rw [hc, String.toList_singleton]), ?_⟩
      simpa only [Bool.or_eq_true, decide_eq_true_eq, beq_iff_eq] using hcontrol
    · cases h
  · cases h

/-- A control character of ASCII is counted as one column. -/
theorem clusterWidth_singleton_of_control {c : Char} (h : c.toNat < 0x20 ∨ c.toNat = 0x7F) :
    clusterWidth (String.singleton c) = 1 := by
  have hascii : ∀ n < 128, n < 0x20 ∨ n = 0x7F →
      clusterWidth (String.singleton (Char.ofNat n)) = 1 := by
    decide +kernel
  rw [← Char.ofNat_toNat c]
  exact hascii c.toNat (by omega) h

theorem isLineBreak_eq_false {s g : String} (hs : '\n' ∉ s.toList) (hg : g ∈ clusters s) :
    isLineBreak g = false := by
  cases hbreak : isLineBreak g
  · rfl
  · refine absurd (mem_toList_iff_exists_mem_clusters.2 ⟨g, hg, ?_⟩) hs
    simp only [isLineBreak, Bool.or_eq_true, beq_iff_eq] at hbreak
    rcases hbreak with rfl | rfl <;> decide

namespace Segment

variable {seg : Segment}

/-- Clusters of a run that are shown in caret form. -/
def carets (seg : Segment) : Nat := (clusters seg.text).countP fun g => (caretForm g).isSome

/-- A caret form fills one more column than its cluster is counted to fill. -/
theorem width_shown? {s g : String} (hg : g ∈ clusters s) {style : Style} {c : Cell}
    (h : Cell.shown? g style = some c) :
    c.width = clusterWidth g + if (caretForm g).isSome then 1 else 0 := by
  unfold Cell.shown? at h
  split at h
  · cases h
  · cases hcaret : caretForm g with
    | some caret =>
      rw [hcaret] at h
      cases h
      obtain ⟨d, rfl, hcontrol⟩ := exists_eq_singleton_of_caretForm hcaret
      rw [clusterWidth_singleton_of_control hcontrol]
      exact displayWidth_of_caretForm hcaret
    | none =>
      rw [hcaret] at h
      cases h
      exact displayWidth_of_mem_clusters hg

theorem exists_shown?_eq_some {g : String} (h : isLineBreak g = false) (style : Style) :
    ∃ c, Cell.shown? g style = some c := by
  unfold Cell.shown?
  rw [if_neg (by simp [h])]
  cases caretForm g with
  | none => exact ⟨_, rfl⟩
  | some caret => exact ⟨_, rfl⟩

theorem lineWidth_cells (h : '\n' ∉ seg.text.toList) :
    Frame.lineWidth seg.cells = displayWidth seg.text + seg.carets := by
  have hclusters (gs : List String) (hgs : ∀ g ∈ gs, g ∈ clusters seg.text) :
      Frame.lineWidth (gs.flatMap fun g => (Cell.shown? g seg.style).toList) =
        total clusterWidth gs + gs.countP fun g => (caretForm g).isSome := by
    induction gs with
    | nil => rfl
    | cons g gs ih =>
      obtain ⟨hg, hgs⟩ := List.forall_mem_cons.1 hgs
      obtain ⟨c, hc⟩ := exists_shown?_eq_some (isLineBreak_eq_false h hg) seg.style
      have hwidth := width_shown? hg hc
      rw [List.flatMap_cons, hc, Option.toList_some, List.singleton_append, Frame.lineWidth_cons,
        ih hgs, hwidth, total_cons, List.countP_cons]
      omega
  exact hclusters _ fun _ hg => hg

/-- No cluster is shown in caret form just when all control characters are beyond ASCII. -/
theorem carets_eq_zero_iff (h : '\n' ∉ seg.text.toList) :
    seg.carets = 0 ↔ ∀ c ∈ seg.text.toList, isControl c = true → isC1 c = true := by
  rw [carets, List.countP_eq_zero]
  constructor
  · intro hnone c hc hcontrol
    obtain ⟨g, hg, hc⟩ := mem_toList_iff_exists_mem_clusters.1 hc
    rcases eq_or_eq_of_mem_clusters hg hc hcontrol with rfl | rfl
    · have hcaret := hnone _ hg
      rw [caretForm_singleton, hcontrol] at hcaret
      cases hc1 : isC1 c
      · rw [hc1] at hcaret
        exact absurd rfl hcaret
      · rfl
    · exact absurd (isLineBreak_eq_false h hg) (by decide)
  · intro hcontrols g hg hcaret
    obtain ⟨caret, hcaret⟩ := Option.isSome_iff_exists.1 hcaret
    obtain ⟨c, rfl, hascii⟩ := exists_eq_singleton_of_caretForm hcaret
    have hc : c ∈ seg.text.toList :=
      mem_toList_iff_exists_mem_clusters.2 ⟨_, hg, by simp⟩
    have hcontrol : isControl c = true := by
      simp only [isControl, Bool.or_eq_true, Bool.and_eq_true, decide_eq_true_eq]
      omega
    rw [caretForm_singleton, hcontrol, hcontrols c hc hcontrol] at hcaret
    cases hcaret

end Segment

namespace StyledText

variable {t : StyledText}

/-- The cells that show a text, those of its clusters that are not line breaks. -/
def cells (t : StyledText) : List Cell := t.segments.flatMap Segment.cells

/-- Clusters of a text that are shown in caret form. -/
def carets (t : StyledText) : Nat := total Segment.carets t.segments

theorem mem_toList_text {c : Char} :
    c ∈ t.text.toList ↔ ∃ seg ∈ t.segments, c ∈ seg.text.toList := by
  rw [text, String.toList_join, List.flatMap_map, List.mem_flatMap]

/-- **The columns that a text fills** are those that its clusters are counted to fill, and one more
for each that is shown in caret form. -/
theorem lineWidth_cells (h : '\n' ∉ t.text.toList) :
    Frame.lineWidth t.cells = t.width + t.carets := by
  have hsegments (segments : List Segment) (hsegments : ∀ seg ∈ segments, '\n' ∉ seg.text.toList) :
      Frame.lineWidth (segments.flatMap Segment.cells) =
        total (fun seg => displayWidth seg.text) segments + total Segment.carets segments := by
    induction segments with
    | nil => rfl
    | cons seg segments ih =>
      obtain ⟨hseg, hsegments⟩ := List.forall_mem_cons.1 hsegments
      rw [List.flatMap_cons, Frame.lineWidth_append, seg.lineWidth_cells hseg, ih hsegments,
        total_cons, total_cons]
      omega
  exact hsegments _ fun seg hseg hline => h (mem_toList_text.2 ⟨seg, hseg, hline⟩)

theorem carets_eq_zero_iff (h : '\n' ∉ t.text.toList) :
    t.carets = 0 ↔ ∀ c ∈ t.text.toList, isControl c = true → isC1 c = true := by
  have htotal (segments : List Segment) :
      total Segment.carets segments = 0 ↔ ∀ seg ∈ segments, seg.carets = 0 := by
    induction segments with
    | nil => simp
    | cons seg segments ih => rw [total_cons, Nat.add_eq_zero_iff, ih, List.forall_mem_cons]
  have hbreak {seg : Segment} (hseg : seg ∈ t.segments) : '\n' ∉ seg.text.toList :=
    fun hline => h (mem_toList_text.2 ⟨seg, hseg, hline⟩)
  rw [carets, htotal]
  constructor
  · intro hcarets c hc
    obtain ⟨seg, hseg, hc⟩ := mem_toList_text.1 hc
    exact (Segment.carets_eq_zero_iff (hbreak hseg)).1 (hcarets seg hseg) c hc
  · intro hcontrols seg hseg
    exact (Segment.carets_eq_zero_iff (hbreak hseg)).2 fun c hc =>
      hcontrols c (mem_toList_text.2 ⟨seg, hseg, hc⟩)

end StyledText

/-! ### Cells on a line -/

namespace Writer

variable {w : Writer} {cs : List Cell}

/-- Writes cells one after another. -/
def put (w : Writer) (cs : List Cell) : Writer := cs.foldl (fun w c => w.cell c c.width) w

theorem put_append (w : Writer) (cs ds : List Cell) : w.put (cs ++ ds) = (w.put cs).put ds :=
  List.foldl_append

theorem foldl_put_flatMap {β : Type} (f : β → List Cell) (l : List β) (w : Writer) :
    l.foldl (fun w b => w.put (f b)) w = w.put (l.flatMap f) :=
  List.foldl_flatMap.symm

theorem text_eq_put {s : String} (h : '\n' ∉ s.toList) (style : Style) (w : Writer) :
    w.text s style = w.put (Segment.cells ⟨style, s⟩) := by
  rw [text, Segment.cells, ← foldl_put_flatMap]
  refine List.foldl_ext _ _ _ fun w g hg => ?_
  rw [cluster_eq hg]
  obtain ⟨c, hc⟩ := Segment.exists_shown?_eq_some (isLineBreak_eq_false h hg) style
  rw [hc]
  rfl

theorem styled_eq_put {t : StyledText} (h : '\n' ∉ t.text.toList) (w : Writer) :
    w.styled t = w.put t.cells := by
  rw [styled, StyledText.cells, ← foldl_put_flatMap]
  refine List.foldl_ext _ _ _ fun w seg hseg => text_eq_put (fun hline => h ?_) seg.style w
  exact StyledText.mem_toList_text.2 ⟨seg, hseg, hline⟩

theorem blanks_eq_put (w : Writer) (n : Nat) : w.blanks n {} = w.put (Frame.blanks n) := by
  have hblank (w : Writer) : w.cluster " " {} = w.put [.blank] := by
    rw [cluster_eq (s := " ") (by decide)]
    rfl
  rw [blanks]
  simp only [hblank]
  rw [foldl_put_flatMap, List.flatMap_replicate]
  simp [Frame.blanks]

theorem cell_of_le {c : Cell} (h : w.column + c.width ≤ w.width) :
    w.cell c c.width = { w with line := c :: w.line, column := w.column + c.width } := by
  unfold cell
  rw [if_neg (by omega)]

theorem above_cell_of_lt {c : Cell} (hpos : 0 < w.column) (h : w.width < w.column + c.width) :
    (w.cell c c.width).above = w.line.reverse :: w.above := by
  unfold cell
  rw [if_pos ⟨hpos, h⟩]
  rfl

/-- Cells that fit are written on the current line. -/
theorem put_of_le (h : w.column + Frame.lineWidth cs ≤ w.width) :
    w.put cs =
      { w with line := cs.reverse ++ w.line, column := w.column + Frame.lineWidth cs } := by
  induction cs generalizing w with
  | nil => rfl
  | cons c cs ih =>
    rw [Frame.lineWidth_cons] at h ⊢
    rw [put, List.foldl_cons, cell_of_le (by omega), ← put, ih (by dsimp only; omega)]
    simp [Nat.add_assoc]

theorem length_above_le_put (w : Writer) (cs : List Cell) :
    w.above.length ≤ (w.put cs).above.length := by
  refine List.foldlRecOn (motive := fun v : Writer => w.above.length ≤ v.above.length) cs _
    (Nat.le_refl _) fun v hv c _ => Nat.le_trans hv ?_
  unfold cell
  split
  · exact Nat.le_succ _
  · exact Nat.le_refl _

/-- Of cells that do not fit, some are written on another line. -/
theorem length_above_lt_put (hpos : 0 < w.column) (hcolumn : w.column ≤ w.width)
    (h : w.width < w.column + Frame.lineWidth cs) :
    w.above.length < (w.put cs).above.length := by
  induction cs generalizing w with
  | nil => exact absurd h (Nat.not_lt.2 hcolumn)
  | cons c cs ih =>
    rw [Frame.lineWidth_cons] at h
    rw [put, List.foldl_cons, ← put]
    rcases Nat.lt_or_ge w.width (w.column + c.width) with hwraps | hfits
    · have hrest := length_above_le_put (w.cell c c.width) cs
      rwa [above_cell_of_lt hpos hwraps] at hrest
    · let next : Writer := { w with line := c :: w.line, column := w.column + c.width }
      have hrest : w.width < w.column + c.width + Frame.lineWidth cs := by omega
      have hnext : next.above.length < (next.put cs).above.length :=
        ih (Nat.lt_add_right c.width hpos) hfits hrest
      rwa [cell_of_le hfits]

/-! ### Lines below others -/

/-- A writer with the lines of another one above its own, and the dot where that one has it. -/
def onto (w base : Writer) : Writer :=
  { w with above := w.above ++ base.line.reverse :: base.above, dot := base.dot }

theorem newLine_eq_onto (w : Writer) : w.newLine = (ofWidth w.width).onto w := rfl

theorem onto_cell (w base : Writer) (c : Cell) (width : Nat) :
    (w.onto base).cell c width = (w.cell c width).onto base := by
  have hwraps : ((w.onto base).column > 0 ∧ (w.onto base).column + width > (w.onto base).width) =
      (w.column > 0 ∧ w.column + width > w.width) := rfl
  unfold cell
  simp only [hwraps]
  split <;> rfl

theorem onto_cluster (w base : Writer) (g : String) (style : Style) :
    (w.onto base).cluster g style = (w.cluster g style).onto base := by
  unfold cluster
  split
  · rfl
  · split <;> exact onto_cell ..

theorem onto_styled (w base : Writer) (t : StyledText) :
    (w.onto base).styled t = (w.styled t).onto base :=
  List.foldl_hom (onto · base) fun _ seg =>
    List.foldl_hom (onto · base) fun w g => onto_cluster w base g seg.style

theorem lines_onto (w base : Writer) :
    (w.onto base).finish.lines = base.finish.lines ++ w.finish.lines := by
  simp [onto, finish]

/-- A text on a new line is written as it is by itself, below what is there. -/
theorem lines_newLine_styled (w : Writer) (t : StyledText) :
    (w.newLine.styled t).finish.lines =
      w.finish.lines ++ ((ofWidth w.width).styled t).finish.lines := by
  rw [newLine_eq_onto, onto_styled, lines_onto]

end Writer

namespace CodeLayout

variable {v : CodeLayout} {width : Nat}

/-! ### The lines of a code area -/

/-- The lines of tips, each written by itself. -/
def tipLines (v : CodeLayout) (width : Nat) : List (List Cell) :=
  v.tips.flatMap fun tip => ((Writer.ofWidth width).styled tip).finish.lines

theorem width_styled_ofWidth (width : Nat) (t : StyledText) :
    ((Writer.ofWidth width).styled t).width = width :=
  ((Writer.kept_lined width).styled (Writer.lined_ofWidth width) t).width_eq

theorem lined_writeCode (v : CodeLayout) (width : Nat) : (v.writeCode width).Lined width :=
  kept_writeCode (Writer.kept_lined width) v (Writer.lined_ofWidth width)

theorem lines_foldl_tips (tips : List StyledText) {w : Writer} (hw : w.width = width) :
    (tips.foldl (fun w tip => w.newLine.styled tip) w).finish.lines =
      w.finish.lines ++ tips.flatMap fun tip => ((Writer.ofWidth width).styled tip).finish.lines := by
  induction tips generalizing w with
  | nil => simp
  | cons tip tips ih =>
    have hnext : (w.newLine.styled tip).width = width := by
      rw [Writer.newLine_eq_onto, Writer.onto_styled, hw]
      exact width_styled_ofWidth width tip
    rw [List.foldl_cons, ih hnext, Writer.lines_newLine_styled, hw, List.flatMap_cons,
      List.append_assoc]

/-- Tips are written on lines of their own, whatever is above them. -/
theorem lines_fullFrame (v : CodeLayout) (width : Nat) :
    (v.fullFrame width).lines =
      (v.writeRightPrompt width (v.writeCode width)).finish.lines ++ v.tipLines width :=
  lines_foldl_tips v.tips
    (kept_writeRightPrompt (Writer.kept_lined width) v width (v.lined_writeCode width)).width_eq

theorem width_fullFrame (v : CodeLayout) (width : Nat) : (v.fullFrame width).width = width := by
  obtain ⟨w, hw, hframe⟩ :=
    v.exists_fullFrame_eq (Writer.kept_lined width) (Writer.lined_ofWidth width)
  rw [hframe]
  exact hw.width_eq

/-! ### The right prompt -/

/-- The code area without its right prompt. -/
def withoutRightPrompt (v : CodeLayout) : CodeLayout := { v with rightPrompt := {} }

/-- There is a right prompt, and a blank and the columns that it is counted to fill are left on the
last line of code. -/
structure HasRoom (v : CodeLayout) (width : Nat) : Prop where
  ne_nil : v.rightPrompt.segments ≠ []
  column_lt : (v.writeCode width).column + v.rightPrompt.width < width

/-- The right prompt stands at the right end of the last line of code, behind at least one blank. All
else is as it is without it. -/
def RightAligned (v : CodeLayout) (width : Nat) : Prop :=
  ∃ above last below n,
    (v.writeCode width).finish.lines = above ++ [last] ∧
    (v.withoutRightPrompt.fullFrame width).lines = above ++ last :: below ∧
    0 < n ∧ Frame.lineWidth (last ++ Frame.blanks n ++ v.rightPrompt.cells) = width ∧
    v.fullFrame width = { v.withoutRightPrompt.fullFrame width with
      lines := above ++ (last ++ Frame.blanks n ++ v.rightPrompt.cells) :: below }

theorem RightAligned.height_eq (h : v.RightAligned width) :
    (v.fullFrame width).height = (v.withoutRightPrompt.fullFrame width).height := by
  obtain ⟨above, last, below, n, -, hlines, -, -, hframe⟩ := h
  rw [hframe, Frame.height, Frame.height, hlines, List.length_append, List.length_append]
  rfl

/-- The blanks end where the right prompt begins, if that is as wide as it is counted to be. -/
theorem writeRightPrompt_of_hasRoom (hword : width < signedLimit) (h : v.HasRoom width) :
    v.writeRightPrompt width (v.writeCode width) =
      ((v.writeCode width).blanks
        (width - (v.writeCode width).column - v.rightPrompt.width) {}).styled v.rightPrompt := by
  have hcolumn := h.column_lt
  have hempty : ¬ v.rightPrompt.isEmpty = true := by simp [StyledText.isEmpty, h.ne_nil]
  unfold writeRightPrompt writeRightAligned
  rw [if_neg hempty, signedWord_of_lt hword, if_pos (by omega)]
  congr 2
  omega

theorem writeRightPrompt_of_not_hasRoom (hword : width < signedLimit) (h : ¬ v.HasRoom width) :
    v.writeRightPrompt width (v.writeCode width) = v.writeCode width := by
  unfold writeRightPrompt writeRightAligned
  split
  · rfl
  · rename_i hempty
    rw [signedWord_of_lt hword]
    refine if_neg fun hroom => h ⟨by simpa [StyledText.isEmpty] using hempty, ?_⟩
    omega

theorem lines_withoutRightPrompt (v : CodeLayout) (width : Nat) :
    (v.withoutRightPrompt.fullFrame width).lines =
      (v.writeCode width).finish.lines ++ v.tipLines width := by
  have hcode : v.withoutRightPrompt.writeCode width = v.writeCode width := rfl
  have hempty : v.withoutRightPrompt.rightPrompt.isEmpty = true := rfl
  rw [lines_fullFrame, writeRightPrompt, if_pos hempty, hcode]
  rfl

/-- A right prompt changes nothing but lines. -/
theorem fullFrame_eq (v : CodeLayout) (width : Nat) :
    v.fullFrame width =
      { v.withoutRightPrompt.fullFrame width with lines := (v.fullFrame width).lines } := by
  have hwidth : (v.withoutRightPrompt.fullFrame width).width = (v.fullFrame width).width := by
    rw [width_fullFrame, width_fullFrame]
  have hdot : (v.withoutRightPrompt.fullFrame width).dot = (v.fullFrame width).dot := by
    rw [dot_fullFrame, dot_fullFrame]
    rfl
  dsimp only
  rw [hwidth, hdot]

theorem fullFrame_of_not_hasRoom (hword : width < signedLimit) (h : ¬ v.HasRoom width) :
    v.fullFrame width = v.withoutRightPrompt.fullFrame width := by
  rw [fullFrame_eq, lines_fullFrame, writeRightPrompt_of_not_hasRoom hword h,
    ← lines_withoutRightPrompt]

/-- A right prompt that there is room for, and that is as wide as it is counted to be, ends with the
line. -/
theorem rightAligned_of_hasRoom (hword : width < signedLimit) (h : v.HasRoom width)
    (hbreak : '\n' ∉ v.rightPrompt.text.toList) (hcarets : v.rightPrompt.carets = 0) :
    v.RightAligned width := by
  have hcode := v.lined_writeCode width
  have hcolumn := h.column_lt
  have hprompt := StyledText.lineWidth_cells hbreak
  have hlines := v.lines_fullFrame width
  rw [writeRightPrompt_of_hasRoom hword h, Writer.styled_eq_put hbreak, Writer.blanks_eq_put,
    ← Writer.put_append] at hlines
  generalize hn : width - (v.writeCode width).column - v.rightPrompt.width = n at hlines
  have hwidth : Frame.lineWidth (Frame.blanks n ++ v.rightPrompt.cells) =
      width - (v.writeCode width).column := by
    rw [Frame.lineWidth_append, Frame.lineWidth_blanks, hprompt]
    omega
  rw [Writer.put_of_le (by rw [hwidth, hcode.width_eq]; omega)] at hlines
  refine ⟨(v.writeCode width).above.reverse, (v.writeCode width).line.reverse, v.tipLines width, n,
    by simp [Writer.finish], by simp [lines_withoutRightPrompt, Writer.finish], by omega, ?_, ?_⟩
  · rw [List.append_assoc, Frame.lineWidth_append, hwidth, Writer.lineWidth_reverse,
      ← hcode.column_eq]
    omega
  · rw [fullFrame_eq, hlines]
    simp [Writer.finish]

/-- A right prompt that there is room for, but that is wider than it is counted to be, does not stay
on the line. -/
theorem height_lt_of_hasRoom (hword : width < signedLimit) (h : v.HasRoom width)
    (hbreak : '\n' ∉ v.rightPrompt.text.toList) (hcarets : v.rightPrompt.carets ≠ 0) :
    (v.withoutRightPrompt.fullFrame width).height < (v.fullFrame width).height := by
  have hcode := v.lined_writeCode width
  have hcolumn := h.column_lt
  have hprompt := StyledText.lineWidth_cells hbreak
  rw [Frame.height, Frame.height, lines_withoutRightPrompt, lines_fullFrame,
    writeRightPrompt_of_hasRoom hword h, Writer.styled_eq_put hbreak, Writer.blanks_eq_put]
  generalize hn : width - (v.writeCode width).column - v.rightPrompt.width = n
  let w := (v.writeCode width).put (Frame.blanks n)
  have hblanks : (v.writeCode width).column + Frame.lineWidth (Frame.blanks n) =
      width - v.rightPrompt.width := by
    rw [Frame.lineWidth_blanks]
    omega
  have hw : w = _ := Writer.put_of_le (by rw [hblanks, hcode.width_eq]; omega)
  have hstart : w.column = width - v.rightPrompt.width := by rw [hw, ← hblanks]
  have hwidth : w.width = width := (congrArg Writer.width hw).trans hcode.width_eq
  have habove : w.above = (v.writeCode width).above := by rw [hw]
  have hlonger : w.above.length < (w.put v.rightPrompt.cells).above.length :=
    Writer.length_above_lt_put (by omega) (by omega) (by omega)
  rw [habove] at hlonger
  simpa [Writer.finish] using hlonger

/-- **When a right prompt fits.** Without room for a right prompt that has no line breaks, the frame is
the one without it. With room, it stands at the right end of the last line of code and changes
nothing else, unless it has a control character of ASCII: then the frame has more lines. -/
theorem rightPrompt_fits_iff (v : CodeLayout) {width : Nat} (hword : width < signedLimit)
    (hbreak : '\n' ∉ v.rightPrompt.text.toList) :
    (¬ v.HasRoom width → v.fullFrame width = v.withoutRightPrompt.fullFrame width) ∧
    (v.HasRoom width →
      (v.RightAligned width ↔
        ∀ c ∈ v.rightPrompt.text.toList, isControl c = true → isC1 c = true) ∧
      ((∃ c ∈ v.rightPrompt.text.toList, isControl c = true ∧ isC1 c = false) →
        (v.withoutRightPrompt.fullFrame width).height < (v.fullFrame width).height)) := by
  refine ⟨fullFrame_of_not_hasRoom hword, fun hroom => ⟨⟨fun haligned => ?_, fun hcontrols => ?_⟩, ?_⟩⟩
  · refine (StyledText.carets_eq_zero_iff hbreak).1 (Decidable.byContradiction fun hcarets => ?_)
    exact Nat.ne_of_lt (height_lt_of_hasRoom hword hroom hbreak hcarets) haligned.height_eq.symm
  · exact rightAligned_of_hasRoom hword hroom hbreak ((StyledText.carets_eq_zero_iff hbreak).2 hcontrols)
  · rintro ⟨c, hc, hcontrol, hascii⟩
    refine height_lt_of_hasRoom hword hroom hbreak fun hcarets => ?_
    rw [(StyledText.carets_eq_zero_iff hbreak).1 hcarets c hc hcontrol] at hascii
    cases hascii

/-- A wide right prompt with a mark, beside code of two lines. -/
def twoLines : CodeLayout where
  prompt := .ofString "> " {}
  code := .ofString "a\nls" {}
  dot := 1
  rightPrompt := .ofString "界e\u0301" {}

theorem rightPrompt_fits_iff_twoLines :
    (8 < signedLimit ∧ '\n' ∉ twoLines.rightPrompt.text.toList) ∧
    ((¬ twoLines.HasRoom 8 → twoLines.fullFrame 8 = twoLines.withoutRightPrompt.fullFrame 8) ∧
    (twoLines.HasRoom 8 →
      (twoLines.RightAligned 8 ↔
        ∀ c ∈ twoLines.rightPrompt.text.toList, isControl c = true → isC1 c = true) ∧
      ((∃ c ∈ twoLines.rightPrompt.text.toList, isControl c = true ∧ isC1 c = false) →
        (twoLines.withoutRightPrompt.fullFrame 8).height < (twoLines.fullFrame 8).height))) ∧
    twoLines.HasRoom 8 ∧ (twoLines.fullFrame 8).lineText 1 = "ls   界e\u0301" :=
  ⟨⟨by decide, by decide⟩, rightPrompt_fits_iff twoLines (by decide) (by decide),
    ⟨by decide, by decide +kernel⟩, by decide +kernel⟩

/-- A tab as the right prompt, beside code with two columns left. -/
def tabbed : CodeLayout where
  code := .ofString "ab" {}
  dot := 2
  rightPrompt := .ofString "\t" {}

/-- The tab is counted as one column but shown in two, and gets a line of its own. -/
theorem rightPrompt_breaks_line :
    '\n' ∉ tabbed.rightPrompt.text.toList ∧
    ¬ (tabbed.fullFrame 4 = tabbed.withoutRightPrompt.fullFrame 4 ∨ tabbed.RightAligned 4) := by
  have hheight : (tabbed.withoutRightPrompt.fullFrame 4).height = 1 ∧
      (tabbed.fullFrame 4).height = 2 := by
    decide +kernel
  refine ⟨by decide, ?_⟩
  rintro (hframe | haligned)
  · rw [hframe, hheight.1] at hheight
    cases hheight.2
  · have hsame := haligned.height_eq
    rw [hheight.1, hheight.2] at hsame
    cases hsame

end CodeLayout

end TerminalUI
