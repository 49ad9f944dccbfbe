import TerminalUI.Proofs.Frame.Cells
import TerminalUI.View.Basic

/-!
# Frames that fit

A frame fits a height when it has at most that many lines and the dot is on one of them. What is
known of a frame that was written follows from what every step of writing keeps (`Writer.Kept`). The
dot is never left below the line that is written (`Writer.DotWithin`), and cutting takes it along,
so that texts and code areas fit whatever height they are drawn for (`View.renderText_fits`,
`CodeLayout.render_fits`).
-/

namespace TerminalUI

/-- The frame has at most this height, and the dot is on one of its lines, if there may be any. -/
def Frame.Fits (f : Frame) (height : Nat) : Prop :=
  f.lines.length ≤ height ∧ (0 < height → f.dot.line < f.lines.length)

namespace Writer

/-- A property that every step of writing keeps. A cell is written with the columns that it fills.
-/
structure Kept (P : Writer → Prop) : Prop where
  setDot {w : Writer} (h : P w) : P w.setDot
  newLine {w : Writer} (h : P w) : P w.newLine
  cell {w : Writer} (h : P w) {c : Cell} (hc : c.Shown) : P (w.cell c c.width)

variable {P : Writer → Prop} {w : Writer}

theorem Kept.cluster (hP : Kept P) (h : P w) {s g : String} (hg : g ∈ clusters s)
    (style : Style) : P (w.cluster g style) := by
  rw [cluster_eq hg]
  split
  · exact hP.newLine h
  · rename_i c hc
    exact hP.cell h ⟨s, g, style, hg, hc⟩

theorem Kept.text (hP : Kept P) (h : P w) (s : String) (style : Style) : P (w.text s style) :=
  List.foldlRecOn (motive := P) _ _ h fun _ hw _ hg => hP.cluster hw hg style

theorem Kept.styled (hP : Kept P) (h : P w) (t : StyledText) : P (w.styled t) :=
  List.foldlRecOn (motive := P) _ _ h fun _ hw seg _ => hP.text hw seg.text seg.style

theorem Kept.blanks (hP : Kept P) (h : P w) (n : Nat) (style : Style) : P (w.blanks n style) :=
  List.foldlRecOn (motive := P) _ _ h
    fun _ hw _ _ => hP.cluster hw (s := " ") (by decide) style

/-- The dot is not below the current line. -/
def DotWithin (w : Writer) : Prop := w.dot.line ≤ w.above.length

theorem dotWithin_ofWidth (width : Nat) : (ofWidth width).DotWithin := Nat.le_refl 0

theorem kept_dotWithin : Kept DotWithin where
  setDot _ := Nat.le_refl _
  newLine h := Nat.le_succ_of_le h
  cell h _ _ := by
    unfold Writer.cell
    split
    · exact Nat.le_succ_of_le h
    · exact h

theorem DotWithin.finish (h : w.DotWithin) : w.finish.dot.line < w.finish.lines.length := by
  simp only [Writer.finish, List.length_reverse, List.length_cons]
  exact Nat.lt_succ_of_le h

end Writer

theorem Frame.dot_line_trim_le (f : Frame) (low high : Nat) :
    (f.trim low high).dot.line ≤ (f.trim low high).lines.length - 1 := Nat.min_le_right _ _

/-- Cutting a frame keeps the dot on one of the lines that are left. -/
theorem Frame.trim_fits {f : Frame} {low high height : Nat} (hheight : high - low ≤ height)
    (hlines : 0 < height → low < high ∧ low < f.lines.length) :
    (f.trim low high).Fits height := by
  have hlength : (f.trim low high).lines.length =
      min high f.lines.length - min low (min high f.lines.length) := by
    simp [trim]
  have hdot := f.dot_line_trim_le low high
  refine ⟨by omega, fun hpos => ?_⟩
  have := hlines hpos
  omega

namespace CodeLayout

variable {P : Writer → Prop} {w : Writer}

theorem kept_cluster (hP : Writer.Kept P) {p : Progress} (h : P p.writer) (dot : Nat)
    (style : Style) {s g : String} (hg : g ∈ clusters s) :
    P (p.cluster dot style g).writer := by
  unfold Progress.cluster
  dsimp only
  split
  · exact hP.cluster (hP.setDot h) hg style
  · exact hP.cluster h hg style

theorem kept_writeCode (hP : Writer.Kept P) (v : CodeLayout) {width : Nat}
    (h : P (.ofWidth width)) : P (v.writeCode width) := by
  have hsegment (p : Progress) (seg : Segment) (h : P p.writer) :
      P (p.segment v.dot seg).writer :=
    List.foldlRecOn (motive := fun p : Progress => P p.writer) _ _ h
      fun _ hp _ hg => kept_cluster hP hp v.dot seg.style hg
  have hcode : P (v.code.segments.foldl (Progress.segment v.dot)
      { writer := (Writer.ofWidth width).styled v.prompt }).writer :=
    List.foldlRecOn (motive := fun p : Progress => P p.writer) _ _ (hP.styled h v.prompt)
      fun p hp seg _ => hsegment p seg hp
  unfold writeCode
  dsimp only
  split
  · exact hcode
  · exact hP.setDot hcode

/-- The right prompt is written behind some blanks, or not at all. -/
theorem writeRightPrompt_eq_or (v : CodeLayout) (width : Nat) (w : Writer) :
    v.writeRightPrompt width w = w ∨
      ∃ n, v.writeRightPrompt width w = (w.blanks n {}).styled v.rightPrompt := by
  unfold writeRightPrompt writeRightAligned
  split
  · exact .inl rfl
  · split
    · exact .inr ⟨_, rfl⟩
    · exact .inl rfl

theorem kept_writeRightPrompt (hP : Writer.Kept P) (v : CodeLayout) (width : Nat) (h : P w) :
    P (v.writeRightPrompt width w) := by
  rcases v.writeRightPrompt_eq_or width w with heq | ⟨n, heq⟩
  · rwa [heq]
  · rw [heq]
    exact hP.styled (hP.blanks h n {}) v.rightPrompt

theorem exists_fullFrame_eq (hP : Writer.Kept P) (v : CodeLayout) {width : Nat}
    (h : P (.ofWidth width)) : ∃ w, P w ∧ v.fullFrame width = w.finish := by
  have hcode := kept_writeRightPrompt hP v width (kept_writeCode hP v h)
  exact ⟨_, List.foldlRecOn (motive := P) _ _ hcode
    fun _ hw tip _ => hP.styled (hP.newLine hw) tip, rfl⟩

/-- What is known of every frame that is written, and is kept when a frame is cut, is known of the
frame of a code area. -/
theorem kept_render (hP : Writer.Kept P) (Q : Frame → Prop) (hfinish : ∀ {w}, P w → Q w.finish)
    (htrim : ∀ {f : Frame} (low high : Nat), Q f → Q (f.trim low high)) (v : CodeLayout)
    {width : Nat} (h : P (.ofWidth width)) (height : Nat) : Q (v.render width height) := by
  obtain ⟨w, hw, hframe⟩ := v.exists_fullFrame_eq hP h
  have hfull : Q (v.fullFrame width) := hframe ▸ hfinish hw
  unfold render window
  split
  · exact hfull
  · split
    · exact htrim _ _ hfull
    · exact htrim _ _ hfull

theorem dot_fullFrame_lt (v : CodeLayout) (width : Nat) :
    (v.fullFrame width).dot.line < (v.fullFrame width).lines.length := by
  obtain ⟨w, hw, hframe⟩ :=
    v.exists_fullFrame_eq Writer.kept_dotWithin (Writer.dotWithin_ofWidth width)
  rw [hframe]
  exact hw.finish

theorem window_fits {f : Frame} (h : f.dot.line < f.lines.length) (height : Nat) :
    (window f height).Fits height := by
  unfold window
  split
  · exact ⟨by assumption, fun _ => h⟩
  · split
    · exact Frame.trim_fits (by omega) (by omega)
    · exact Frame.trim_fits (by omega) (by omega)

theorem render_fits (v : CodeLayout) (width height : Nat) : (v.render width height).Fits height :=
  window_fits (v.dot_fullFrame_lt width) height

end CodeLayout

namespace View

theorem kept_writeSpans {P : Writer → Prop} (hP : Writer.Kept P) (dotAfter i : Nat) {w : Writer}
    (h : P w) (spans : List StyledText) : P (writeSpans dotAfter i w spans) := by
  induction spans generalizing i w with
  | nil => exact h
  | cons span spans ih =>
    apply ih
    split
    · exact hP.setDot (hP.styled h span)
    · exact hP.styled h span

theorem renderText_fits (spans : List StyledText) (dotAfter width height : Nat) :
    (renderText spans dotAfter width height).Fits height := by
  have hpos := (kept_writeSpans Writer.kept_dotWithin dotAfter 0
    (Writer.dotWithin_ofWidth width) spans).finish
  exact Frame.trim_fits (by omega) (by omega)

end View

end TerminalUI
