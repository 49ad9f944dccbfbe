import TerminalUI.Proofs.Text.Cutting
import TerminalUI.Proofs.View.Fitting

/-!
# The window of a code area

Which lines of a code area are shown, and where its dot is. The frame before it is cut has its dot
where writing stands once the prompt and the clusters that start before the dot of the code are
written (`CodeLayout.dot_fullFrame`). What is shown is a run of its lines around that of the dot
(`CodeLayout.Window`): the first ones if the dot is on one of them, or else those that end with it.

* `Writer.dot_styled` : writing leaves the dot where it was set;
* `CodeLayout.exists_text_of_mem_placed` : the clusters of the code are where they start in its text;
* `CodeLayout.dot_write` : where writing the clusters of the code sets the dot;
* `CodeLayout.exists_window_render` : **the window that a code area shows**, for every height that
  is not zero.
-/

namespace TerminalUI

/-! ### Writing and the dot -/

namespace Writer

theorem dot_cell (w : Writer) (c : Cell) (width : Nat) : (w.cell c width).dot = w.dot := by
  unfold cell
  split <;> rfl

theorem dot_cluster (w : Writer) (g : String) (style : Style) :
    (w.cluster g style).dot = w.dot := by
  unfold cluster
  split
  · rfl
  · split
    · exact dot_cell ..
    · exact dot_cell ..

theorem dot_foldl {β : Type} {f : Writer → β → Writer} (hf : ∀ w x, (f w x).dot = w.dot)
    (l : List β) (w : Writer) : (l.foldl f w).dot = w.dot :=
  List.foldlRecOn (motive := fun v : Writer => v.dot = w.dot) l f rfl
    fun v hv x _ => (hf v x).trans hv

theorem dot_text (w : Writer) (s : String) (style : Style) : (w.text s style).dot = w.dot :=
  dot_foldl (fun w g => dot_cluster w g style) _ w

theorem dot_styled (w : Writer) (t : StyledText) : (w.styled t).dot = w.dot :=
  dot_foldl (fun w (seg : Segment) => dot_text w seg.text seg.style) _ w

theorem dot_blanks (w : Writer) (n : Nat) (style : Style) : (w.blanks n style).dot = w.dot :=
  dot_foldl (fun w _ => dot_cluster w " " style) _ w

end Writer

namespace CodeLayout

/-- A cluster of code in its style, and the offset in the code where it starts. -/
structure Placed where
  start : Nat
  text : String
  style : Style

/-- Clusters from an offset on, each behind the one before it. -/
def placed : Nat → List (String × Style) → List Placed
  | _, [] => []
  | start, (g, style) :: rest => ⟨start, g, style⟩ :: placed (start + byteLength g) rest

/-- The clusters of code in their styles. Each run of the code is cut into clusters by itself. -/
def runClusters (t : StyledText) : List (String × Style) :=
  t.segments.flatMap fun seg => (clusters seg.text).map fun g => (g, seg.style)

/-- The clusters of the code that start before the dot. -/
def clustersBeforeDot (v : CodeLayout) : List Placed :=
  (placed 0 (runClusters v.code)).filter fun c => c.start < v.dot

/-- Writes clusters one after another. -/
def writeClusters (w : Writer) (cs : List Placed) : Writer :=
  cs.foldl (fun w c => w.cluster c.text c.style) w

variable {cs : List (String × Style)} {start dot : Nat} {c : Placed}

/-- A cluster starts behind the text of those before it. -/
theorem exists_of_mem_placed (h : c ∈ placed start cs) :
    ∃ front back, cs = front ++ (c.text, c.style) :: back ∧
      c.start = start + byteLength (String.join (front.map Prod.fst)) := by
  induction cs generalizing start with
  | nil => cases h
  | cons x cs ih =>
    rcases List.mem_cons.1 h with rfl | h
    · exact ⟨[], cs, rfl, rfl⟩
    · obtain ⟨front, back, rfl, hstart⟩ := ih h
      refine ⟨x :: front, back, rfl, ?_⟩
      rw [hstart, List.map_cons, String.join_cons, byteLength_append, Nat.add_assoc]

theorem join_runClusters (t : StyledText) :
    String.join ((runClusters t).map Prod.fst) = t.text := by
  rw [runClusters, StyledText.text]
  induction t.segments with
  | nil => rfl
  | cons seg segments ih =>
    rw [List.flatMap_cons, List.map_append, String.join_append, ih, List.map_map, List.map_cons,
      String.join_cons]
    change String.join ((clusters seg.text).map id) ++ _ = _
    rw [List.map_id, join_clusters]

/-- A cluster of the code is in its text where it starts. -/
theorem exists_text_of_mem_placed {t : StyledText} (h : c ∈ placed 0 (runClusters t)) :
    ∃ before after, before ++ c.text ++ after = t.text ∧ byteLength before = c.start := by
  obtain ⟨front, back, heq, hstart⟩ := exists_of_mem_placed h
  refine ⟨String.join (front.map Prod.fst), String.join (back.map Prod.fst), ?_, ?_⟩
  · rw [← join_runClusters, heq, List.map_append, List.map_cons, String.join_append,
      String.join_cons, String.append_assoc]
  · rw [hstart, Nat.zero_add]

/-- Writes clusters of the code in turn. -/
def Progress.write (dot : Nat) (p : Progress) (cs : List (String × Style)) : Progress :=
  cs.foldl (fun p x => p.cluster dot x.2 x.1) p

theorem foldl_segment_eq_write (dot : Nat) (p : Progress) (t : StyledText) :
    t.segments.foldl (Progress.segment dot) p = p.write dot (runClusters t) := by
  simp only [Progress.write, runClusters, List.foldl_flatMap, List.foldl_map]
  rfl

/-- Sets the dot behind the code, unless it was set in it. -/
def Progress.close (p : Progress) : Writer := if p.dotSet then p.writer else p.writer.setDot

/-- Once the dot is set it stays. -/
theorem dot_write_of_dotSet {p : Progress} (h : p.dotSet = true) :
    (p.write dot cs).close.dot = p.writer.dot := by
  induction cs generalizing p with
  | nil => rw [Progress.write, List.foldl_nil, Progress.close, if_pos h]
  | cons x cs ih =>
    rw [Progress.write, List.foldl_cons]
    refine (ih ?_).trans ?_
    · simp only [Progress.cluster, h, Bool.true_or]
    · simp [Progress.cluster, h, Writer.dot_cluster]

/-- The dot is set where writing stands once all clusters that start before it are written. -/
theorem dot_write {p : Progress} (h : p.dotSet = false) :
    (p.write dot cs).close.dot =
      (writeClusters p.writer ((placed p.offset cs).filter fun c => c.start < dot)).head := by
  induction cs generalizing p with
  | nil =>
    rw [Progress.write, List.foldl_nil, Progress.close, if_neg (by simp [h])]
    rfl
  | cons x cs ih =>
    obtain ⟨g, style⟩ := x
    rw [Progress.write, List.foldl_cons, ← Progress.write]
    by_cases hle : dot ≤ p.offset
    · -- no cluster from here on starts before the dot
      have hnone : (placed p.offset ((g, style) :: cs)).filter (fun c => c.start < dot) = [] := by
        refine List.filter_eq_nil_iff.2 fun c hc => ?_
        obtain ⟨_, _, -, hstart⟩ := exists_of_mem_placed hc
        simp only [decide_eq_true_eq]
        omega
      rw [hnone, dot_write_of_dotSet (by simp [Progress.cluster, h, hle])]
      simp [Progress.cluster, h, hle, Writer.dot_cluster, Writer.setDot, writeClusters]
    · have hlt : p.offset < dot := Nat.lt_of_not_le hle
      rw [ih (by simp [Progress.cluster, h, hle])]
      simp [Progress.cluster, h, hle, placed, hlt, writeClusters]

theorem dot_writeCode (v : CodeLayout) (width : Nat) :
    (v.writeCode width).dot =
      (writeClusters ((Writer.ofWidth width).styled v.prompt) v.clustersBeforeDot).head := by
  have hclose : v.writeCode width = Progress.close (v.code.segments.foldl (Progress.segment v.dot)
      { writer := (Writer.ofWidth width).styled v.prompt }) := rfl
  rw [hclose, foldl_segment_eq_write, dot_write rfl]
  rfl

theorem dot_writeRightPrompt (v : CodeLayout) (width : Nat) (w : Writer) :
    (v.writeRightPrompt width w).dot = w.dot := by
  rcases v.writeRightPrompt_eq_or width w with h | ⟨n, h⟩
  · rw [h]
  · rw [h, Writer.dot_styled, Writer.dot_blanks]

/-- What is written behind the code leaves the dot in it. -/
theorem dot_fullFrame (v : CodeLayout) (width : Nat) :
    (v.fullFrame width).dot =
      (writeClusters ((Writer.ofWidth width).styled v.prompt) v.clustersBeforeDot).head := by
  rw [← dot_writeCode, ← dot_writeRightPrompt v width (v.writeCode width)]
  exact Writer.dot_foldl (fun w tip => w.newLine.dot_styled tip) v.tips _

/-! ### The window around the dot -/

/-- The frame shows the lines of another one from a line on, as many as the height allows, and has
its dot at the same place of them. -/
structure Window (full shown : Frame) (height first : Nat) : Prop where
  lines_eq : shown.lines = (full.lines.drop first).take (min height full.lines.length)
  length_lines : shown.lines.length = min height full.lines.length
  dot_mem : shown.dot.line < shown.lines.length
  dot_line : first + shown.dot.line = full.dot.line
  dot_column : shown.dot.column = full.dot.column
  /-- The window starts at the top if that shows the dot. -/
  top : full.dot.line < height ∨ full.lines.length ≤ height → first = 0
  /-- The window ends with the dot if it is below. -/
  bottom : height ≤ full.dot.line → first + shown.lines.length = full.dot.line + 1

variable {f : Frame} {low height : Nat}

/-- Cutting a frame to as many lines as are shown, of which that of the dot is one. -/
theorem window_trim (hlow : low ≤ f.dot.line) (hdot : f.dot.line < low + height)
    (hlines : low + height ≤ f.lines.length) (htop : f.dot.line < height → low = 0)
    (hbottom : height ≤ f.dot.line → low + height = f.dot.line + 1) :
    Window f (f.trim low (low + height)) height low := by
  have hmin : min height f.lines.length = height := by omega
  have hlength : (f.trim low (low + height)).lines.length = height := by
    simp only [Frame.trim, List.length_drop, List.length_take]
    omega
  have hline : (f.trim low (low + height)).dot.line = f.dot.line - low := by
    have hlast : (f.trim low (low + height)).dot.line =
        min (f.dot.line - min low (min (low + height) f.lines.length))
          ((f.trim low (low + height)).lines.length - 1) := rfl
    omega
  refine ⟨?_, by omega, by omega, by omega, rfl, by omega, by omega⟩
  rw [hmin, Frame.trim]
  dsimp only
  rw [Nat.min_eq_left hlines, Nat.min_eq_left (Nat.le_add_right low height), List.drop_take,
    Nat.add_sub_cancel_left]

theorem exists_window_window (hdot : f.dot.line < f.lines.length) (hheight : 0 < height) :
    ∃ first, Window f (window f height) height first := by
  unfold window
  split
  · rename_i hle
    have hmin : min height f.lines.length = f.lines.length := Nat.min_eq_right hle
    refine ⟨0, ?_, hmin.symm, hdot, Nat.zero_add _, rfl, fun _ => rfl, by omega⟩
    rw [hmin, List.drop_zero, List.take_length]
  · split
    · have h : Window f (f.trim 0 (0 + height)) height 0 :=
        window_trim (by omega) (by omega) (by omega) (fun _ => rfl) (by omega)
      exact ⟨0, by simpa only [Nat.zero_add] using h⟩
    · have hhigh : f.dot.line + 1 = f.dot.line + 1 - height + height := by omega
      refine ⟨f.dot.line + 1 - height, ?_⟩
      rw [hhigh, Nat.add_sub_cancel]
      exact window_trim (by omega) (by omega) (by omega) (by omega) (by omega)

/-- **The window that a code area shows.** It is a run of the lines of the frame before it is cut,
as many as the height allows, with the dot on the same line of it and in the same column: from the
top if that shows the dot, or else up to the line of the dot. The dot stands where writing does
once the prompt and the clusters of the code that start before the dot are written. -/
theorem exists_window_render (v : CodeLayout) (width : Nat) (hheight : 0 < height) :
    (∃ first, Window (v.fullFrame width) (v.render width height) height first) ∧
      (v.fullFrame width).dot =
        (writeClusters ((Writer.ofWidth width).styled v.prompt) v.clustersBeforeDot).head :=
  ⟨exists_window_window (v.dot_fullFrame_lt width) hheight, v.dot_fullFrame width⟩

/-- Code of three lines with the dot inside a wide cluster, on the last of them. -/
def wideBelow : CodeLayout where
  prompt := .ofString "> " {}
  code := .ofString "a\nb\n界d" {}
  dot := 5

theorem exists_window_render_wideBelow :
    0 < 2 ∧
    ((∃ first, Window (wideBelow.fullFrame 20) (wideBelow.render 20 2) 2 first) ∧
      (wideBelow.fullFrame 20).dot =
        (writeClusters ((Writer.ofWidth 20).styled wideBelow.prompt)
          wideBelow.clustersBeforeDot).head) ∧
    (wideBelow.render 20 2).dot = ⟨1, 2⟩ :=
  ⟨Nat.two_pos, exists_window_render wideBelow 20 Nat.two_pos, by decide +kernel⟩

end CodeLayout

end TerminalUI
