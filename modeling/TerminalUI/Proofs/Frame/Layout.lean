import Mathlib.Data.List.Chain
import Mathlib.Data.List.Forall2
import TerminalUI.Proofs.Frame.Controls
import TerminalUI.Proofs.View.Widths

/-!
# Layout of text

How what is written is laid out in lines. Line breaks cut the cells that are written into paragraphs
(`paragraphs`), and each paragraph is filled into lines of its own (`Wrapped`), which go on as long
as the next cell fits.

* `Wrapped.push`, `Wrapped.wrap` : the two ways in which a paragraph grows by a cell;
* `Writer.Laid` : what was written so far, and how it is laid out; every step of writing keeps it;
* `Writer.writeAll_layout` : **the layout of everything that can be written**: no cell is lost,
  repeated or moved, and a line starts only where it has to.
-/

namespace TerminalUI

/-- Every cell that shows a cluster fills a column. -/
theorem Cell.Shown.width_pos {c : Cell} (h : c.Shown) : 0 < c.width := Cell.width_pos h.text_ne_empty

/-- A line that another one follows: it has a cell, and the first one of the next line does not fit
behind it. -/
def Overflows (width : Nat) (line next : List Cell) : Prop :=
  line ≠ [] ∧ ∃ c ∈ next.head?, width < Frame.lineWidth line + c.width

/-- A paragraph in lines. Each line is within the width or has a single cell, and goes on as far as
the cells fit. -/
structure Wrapped (width : Nat) (cells : List Cell) (lines : List (List Cell)) : Prop where
  flatten_eq : lines.flatten = cells
  ne_nil : lines ≠ []
  fits : ∀ line ∈ lines, Frame.lineWidth line ≤ width ∨ ∃ c, line = [c]
  full : lines.IsChain (Overflows width)

namespace Wrapped

variable {width : Nat} {cells line : List Cell} {lines : List (List Cell)} {c : Cell}

theorem nil (width : Nat) : Wrapped width [] [[]] where
  flatten_eq := rfl
  ne_nil := nofun
  fits line hline := by
    rw [List.mem_singleton.1 hline]
    exact .inl (Nat.zero_le width)
  full := .singleton _

theorem exists_of_mem {ps : List (List Cell)} {groups : List (List (List Cell))}
    (h : List.Forall₂ (Wrapped width) ps groups) (hlines : lines ∈ groups) :
    ∃ p, Wrapped width p lines := by
  induction h with
  | nil => cases hlines
  | @cons p group ps groups hp _ ih =>
    rcases List.mem_cons.1 hlines with rfl | hlines
    · exact ⟨p, hp⟩
    · exact ih hlines

theorem lineWidth_concat (line : List Cell) (c : Cell) :
    Frame.lineWidth (line ++ [c]) = Frame.lineWidth line + c.width := by
  rw [Frame.lineWidth, total_append]
  rfl

/-- A cell is added to the last line, if the line is empty or has room for it. -/
theorem push (h : Wrapped width cells (lines ++ [line]))
    (hroom : line = [] ∨ Frame.lineWidth line + c.width ≤ width) :
    Wrapped width (cells ++ [c]) (lines ++ [line ++ [c]]) where
  flatten_eq := by
    rw [← h.flatten_eq]
    simp
  ne_nil := by simp
  fits l hl := by
    rcases List.mem_append.1 hl with hl | hl
    · exact h.fits l (List.mem_append_left _ hl)
    · rw [List.mem_singleton.1 hl]
      rcases hroom with rfl | hroom
      · exact .inr ⟨c, rfl⟩
      · exact .inl (by rwa [lineWidth_concat])
  full := by
    obtain ⟨hlines, -, hlast⟩ := List.isChain_append.1 h.full
    refine List.isChain_append.2 ⟨hlines, .singleton _, fun l hl next hnext => ?_⟩
    obtain rfl : line ++ [c] = next := by simpa using hnext
    -- the line before was left for the first cell of this one, which still comes first
    obtain ⟨hne, first, hfirst, hwidth⟩ := hlast l hl line (by simp)
    exact ⟨hne, first, by simp [List.head?_append, Option.mem_def.1 hfirst], hwidth⟩

/-- A cell is put on a line of its own, if the last line has no room for it. -/
theorem wrap (h : Wrapped width cells (lines ++ [line])) (hne : line ≠ [])
    (hfull : width < Frame.lineWidth line + c.width) :
    Wrapped width (cells ++ [c]) (lines ++ [line] ++ [[c]]) where
  flatten_eq := by
    rw [← h.flatten_eq]
    simp
  ne_nil := by simp
  fits l hl := by
    rcases List.mem_append.1 hl with hl | hl
    · exact h.fits l hl
    · exact .inr ⟨c, List.mem_singleton.1 hl⟩
  full := by
    refine List.isChain_append.2 ⟨h.full, .singleton _, fun l hl next hnext => ?_⟩
    obtain rfl : line = l := by simpa using hl
    obtain rfl : [c] = next := by simpa using hnext
    exact ⟨hne, c, rfl, hfull⟩

end Wrapped

/-! ### What is written -/

/-- The cells between line breaks; `none` is a line break. -/
def paragraphs : List (Option Cell) → List (List Cell)
  | [] => [[]]
  | none :: items => [] :: paragraphs items
  | some c :: items => (paragraphs items).modifyHead (c :: ·)

/-- The cells and line breaks that a run of text is written as. -/
def Segment.items (seg : Segment) : List (Option Cell) :=
  (clusters seg.text).map fun g => Cell.shown? g seg.style

/-- The cells and line breaks that are written. -/
def Write.items : Write → List (Option Cell)
  | .newLine => [none]
  | write => write.segments.flatMap Segment.items

/-- What follows the cells and line breaks that came before, goes to the last paragraph. -/
theorem exists_paragraphs (items : List (Option Cell)) :
    ∃ ps p, paragraphs items = ps ++ [p] ∧ paragraphs (items ++ [none]) = ps ++ [p] ++ [[]] ∧
      ∀ c, paragraphs (items ++ [some c]) = ps ++ [p ++ [c]] := by
  induction items with
  | nil => exact ⟨[], [], rfl, rfl, fun _ => rfl⟩
  | cons item items ih =>
    obtain ⟨ps, p, hlast, hnone, hsome⟩ := ih
    cases item with
    | none =>
      refine ⟨[] :: ps, p, ?_, ?_, fun c => ?_⟩
      · rw [paragraphs, hlast, List.cons_append]
      · rw [List.cons_append, paragraphs, hnone, List.cons_append, List.cons_append]
      · rw [List.cons_append, paragraphs, hsome, List.cons_append]
    | some d =>
      cases ps with
      | nil =>
        refine ⟨[], d :: p, ?_, ?_, fun c => ?_⟩
        · rw [paragraphs, hlast]
          rfl
        · rw [List.cons_append, paragraphs, hnone]
          rfl
        · rw [List.cons_append, paragraphs, hsome]
          rfl
      | cons q ps =>
        refine ⟨(d :: q) :: ps, p, ?_, ?_, fun c => ?_⟩
        · rw [paragraphs, hlast]
          rfl
        · rw [List.cons_append, paragraphs, hnone]
          rfl
        · rw [List.cons_append, paragraphs, hsome]
          rfl

namespace Writer

/-- What was written so far, and how it is laid out: the paragraphs that are over in lines of their
own, and the last one in further lines, of which the current one is the last. -/
structure Laid (width : Nat) (items : List (Option Cell)) (w : Writer) : Prop where
  width_eq : w.width = width
  column_eq : w.column = Frame.lineWidth w.line
  column_pos : w.line ≠ [] → 0 < w.column
  laid : ∃ ps p groups lines, paragraphs items = ps ++ [p] ∧
    w.above.reverse = groups.flatten ++ lines ∧ List.Forall₂ (Wrapped width) ps groups ∧
    Wrapped width p (lines ++ [w.line.reverse])

variable {width : Nat} {items : List (Option Cell)} {w : Writer}

theorem laid_ofWidth (width : Nat) : Laid width [] (ofWidth width) where
  width_eq := rfl
  column_eq := rfl
  column_pos := nofun
  laid := ⟨[], [], [], [], rfl, rfl, .nil, .nil width⟩

theorem Laid.setDot (h : Laid width items w) : Laid width items w.setDot :=
  ⟨h.width_eq, h.column_eq, h.column_pos, h.laid⟩

theorem Laid.newLine (h : Laid width items w) : Laid width (items ++ [none]) w.newLine where
  width_eq := h.width_eq
  column_eq := rfl
  column_pos := nofun
  laid := by
    obtain ⟨ps, p, groups, lines, hlast, habove, hover, hline⟩ := h.laid
    obtain ⟨ps', p', hlast', hnone, -⟩ := exists_paragraphs items
    obtain ⟨rfl, hp⟩ := List.append_inj' (hlast'.symm.trans hlast) rfl
    obtain rfl := List.head_eq_of_cons_eq hp
    refine ⟨_, _, groups ++ [lines ++ [w.line.reverse]], [], hnone, ?_, ?_, .nil width⟩
    · simp [Writer.newLine, habove]
    · exact List.rel_append hover (.cons hline .nil)

theorem Laid.cell (h : Laid width items w) {c : Cell} (hc : c.Shown) :
    Laid width (items ++ [some c]) (w.cell c c.width) := by
  obtain ⟨ps, p, groups, lines, hlast, habove, hover, hline⟩ := h.laid
  obtain ⟨ps', p', hlast', -, hsome⟩ := exists_paragraphs items
  obtain ⟨rfl, hp⟩ := List.append_inj' (hlast'.symm.trans hlast) rfl
  obtain rfl := List.head_eq_of_cons_eq hp
  have hpos := hc.width_pos
  have hlineWidth := lineWidth_reverse w.line
  rw [← h.column_eq] at hlineWidth
  unfold Writer.cell
  dsimp only
  split
  · rename_i hwrap
    obtain ⟨hcolumn, hfull⟩ := hwrap
    rw [h.width_eq] at hfull
    refine ⟨h.width_eq, ?_, fun _ => Nat.lt_add_left _ hpos, ?_⟩
    · rw [Frame.lineWidth, total_cons, Nat.add_comm]
      rfl
    · refine ⟨_, _, groups, lines ++ [w.line.reverse], hsome c, ?_, hover, ?_⟩
      · simp [Writer.newLine, habove]
      · refine hline.wrap ?_ (by rwa [hlineWidth])
        intro hnil
        rw [hnil] at hlineWidth
        exact Nat.ne_of_lt hcolumn hlineWidth
  · rename_i hroom
    rw [h.width_eq] at hroom
    refine ⟨h.width_eq, ?_, fun _ => Nat.lt_add_left _ hpos, ?_⟩
    · rw [Frame.lineWidth, total_cons, ← Frame.lineWidth, ← h.column_eq, Nat.add_comm]
    · refine ⟨_, _, groups, lines, hsome c, habove, hover, ?_⟩
      rw [List.reverse_cons]
      refine hline.push ?_
      rcases eq_or_ne w.line [] with hnil | hne
      · exact .inl (by rw [hnil, List.reverse_nil])
      · have := h.column_pos hne
        exact .inr (by omega)

theorem Laid.cluster (h : Laid width items w) {s g : String} (hg : g ∈ clusters s)
    (style : Style) : Laid width (items ++ [Cell.shown? g style]) (w.cluster g style) := by
  rw [cluster_eq hg]
  cases hshown : Cell.shown? g style with
  | none => exact h.newLine
  | some c => exact h.cell ⟨s, g, style, hg, hshown⟩

/-- What is written in several steps is laid out if each step keeps it so. -/
theorem Laid.foldl {β : Type} {f : Writer → β → Writer} {written : β → List (Option Cell)}
    {l : List β} (h : Laid width items w)
    (hstep : ∀ b ∈ l, ∀ {items w}, Laid width items w → Laid width (items ++ written b) (f w b)) :
    Laid width (items ++ l.flatMap written) (l.foldl f w) := by
  induction l generalizing items w with
  | nil => rwa [List.flatMap_nil, List.append_nil]
  | cons b l ih =>
    obtain ⟨hb, hl⟩ := List.forall_mem_cons.1 hstep
    rw [List.flatMap_cons, ← List.append_assoc]
    exact ih (hb h) hl

theorem Laid.text (h : Laid width items w) (s : String) (style : Style) :
    Laid width (items ++ Segment.items ⟨style, s⟩) (w.text s style) := by
  rw [Segment.items, List.map_eq_flatMap]
  exact h.foldl fun g hg _ _ h => h.cluster hg style

theorem Laid.write (h : Laid width items w) (write : Write) :
    Laid width (items ++ write.items) (w.write write) := by
  cases write with
  | text s style =>
    have hitems : (Write.text s style).items = Segment.items ⟨style, s⟩ := List.flatMap_singleton _ _
    rw [hitems]
    exact h.text s style
  | styled t => exact h.foldl fun seg _ _ _ h => h.text seg.text seg.style
  | blanks n style =>
    have hitems : (Write.blanks n style).items =
        (List.replicate n ()).flatMap fun _ => [Cell.shown? " " style] := by
      have hblank : Segment.items ⟨style, " "⟩ = [Cell.shown? " " style] := by
        rw [Segment.items, show clusters " " = [" "] by decide, List.map_singleton]
      rw [List.flatMap_replicate, ← hblank]
      exact List.flatMap_replicate
    rw [hitems]
    exact h.foldl fun _ _ _ _ h => h.cluster (s := " ") (by decide) style
  | newLine => exact h.newLine
  | setDot =>
    rw [show Write.setDot.items = [] from rfl, List.append_nil]
    exact h.setDot

/-- **The layout of everything that can be written.** Whatever is written at whatever width, the frame
has the cells of the clusters that are no line breaks, in order. Its lines are those of the
paragraphs between line breaks, one after another, each filled as far as the cells fit. No line is
wider than the width, unless it is a single cell, and the column is where the last line ends. -/
theorem writeAll_layout (width : Nat) (writes : List Write) :
    let w := (ofWidth width).writeAll writes
    w.finish.cells = (writes.flatMap Write.segments).flatMap Segment.cells ∧
    (∃ groups, w.finish.lines = groups.flatten ∧
      List.Forall₂ (Wrapped width) (paragraphs (writes.flatMap Write.items)) groups) ∧
    (∀ line ∈ w.finish.lines, Frame.lineWidth line ≤ width ∨ ∃ c, line = [c]) ∧
    ∃ last ∈ w.finish.lines.getLast?, w.column = Frame.lineWidth last := by
  intro w
  have h : Laid width (writes.flatMap Write.items) w :=
    (laid_ofWidth width).foldl fun write _ _ _ h => h.write write
  obtain ⟨ps, p, groups, lines, hlast, habove, hover, hline⟩ := h.laid
  have hlines : w.finish.lines = (groups ++ [lines ++ [w.line.reverse]]).flatten := by
    simp [finish, habove]
  have hwrapped : List.Forall₂ (Wrapped width) (paragraphs (writes.flatMap Write.items))
      (groups ++ [lines ++ [w.line.reverse]]) :=
    hlast ▸ List.rel_append hover (.cons hline .nil)
  refine ⟨Frame.cells_writeAll width writes, ⟨_, hlines, hwrapped⟩, fun line hmem => ?_, ?_⟩
  · rw [hlines] at hmem
    obtain ⟨group, hgroup, hmem⟩ := List.mem_flatten.1 hmem
    obtain ⟨p, hp⟩ := Wrapped.exists_of_mem hwrapped hgroup
    exact hp.fits line hmem
  · refine ⟨w.line.reverse, by simp [finish], ?_⟩
    rw [lineWidth_reverse, h.column_eq]

/-- A wide cell does not fit behind two others, and a break is kept. -/
example :
    let w := (ofWidth 3).writeAll [.text "ab界\n" {}, .newLine, .text "c" {}]
    w.finish.lines = [[⟨"a", {}⟩, ⟨"b", {}⟩], [⟨"界", {}⟩], [], [⟨"c", {}⟩]] ∧ w.column = 1 := by
  decide +kernel

end Writer

end TerminalUI
