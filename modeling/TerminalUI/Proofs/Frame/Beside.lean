import Mathlib.Data.List.Induction
import TerminalUI.Proofs.View.Bounds
import TerminalUI.Proofs.View.Widths

/-!
# Frames beside each other

What the lines of frames that are put beside each other are made of.

* `Frame.Arranged` : a line made of pieces that begin at columns of their own, and blanks;
* `Frame.lineAt_beside` : a line of two frames beside each other;
* `Frame.start` : where a frame among others begins: at the widths of those before it together, or
  where their line ends if that is further;
* `Frame.arranged_sideBySide` : what each line is made of, whatever the frames are;
* `Frame.start_eq_iff` : when frames begin at the multiples of one width.
-/

namespace TerminalUI

theorem foldl_max_le_iff {l : List Nat} {a m : Nat} :
    l.foldl max a ≤ m ↔ a ≤ m ∧ ∀ n ∈ l, n ≤ m := by
  induction l generalizing a with
  | nil => simp
  | cons n l ih => rw [List.foldl_cons, ih, Nat.max_le, List.forall_mem_cons, and_assoc]

namespace Frame

variable {f left right : Frame} {frames : List Frame} {column each i k : Nat} {line : List Cell}

/-- Line number `i` of the frame; empty past the last one. -/
def lineAt (f : Frame) (i : Nat) : List Cell := f.lines.getD i []

theorem lineAt_of_eq_some (h : f.lines[i]? = some line) : f.lineAt i = line := by
  rw [lineAt, List.getD_eq_getElem?_getD, h, Option.getD_some]

theorem getElem?_lines_of_lt (h : i < f.height) : f.lines[i]? = some (f.lineAt i) := by
  rw [lineAt, List.getD_eq_getElem?_getD, List.getElem?_eq_getElem h, Option.getD_some]

theorem contentWidth_le_iff {m : Nat} :
    f.contentWidth ≤ m ↔ ∀ line ∈ f.lines, lineWidth line ≤ m := by
  rw [contentWidth, foldl_max_le_iff]
  simp

theorem lineWidth_le_contentWidth (h : line ∈ f.lines) : lineWidth line ≤ f.contentWidth :=
  contentWidth_le_iff.1 (Nat.le_refl _) line h

/-- Lines of the tallest frame. -/
def tallest (frames : List Frame) : Nat := (frames.map height).foldl max 0

theorem tallest_concat (frames : List Frame) (f : Frame) :
    tallest (frames ++ [f]) = max (tallest frames) f.height := by
  rw [tallest, List.map_append, List.foldl_append]
  rfl

theorem height_le_tallest (h : f ∈ frames) : f.height ≤ tallest frames :=
  (foldl_max_le_iff.1 (Nat.le_refl _)).2 _ (List.mem_map_of_mem h)

/-- Filling a line up with blanks. -/
theorem lineWidth_fill (l : List Cell) (width : Nat) :
    lineWidth (l ++ blanks (width - lineWidth l)) = max width (lineWidth l) := by
  rw [lineWidth_append, lineWidth_blanks]
  omega

/-! ### Lines made of pieces -/

/-- A line made of pieces, each with the column where it begins. What is between them is blank. -/
inductive Arranged : List (Nat × List Cell) → List Cell → Prop where
  | nil : Arranged [] []
  | concat {pieces : List (Nat × List Cell)} {line : List Cell} {column : Nat}
    (h : Arranged pieces line) (hcolumn : lineWidth line ≤ column) (piece : List Cell) :
    Arranged (pieces ++ [(column, piece)]) (line ++ blanks (column - lineWidth line) ++ piece)

variable {pieces : List (Nat × List Cell)} {piece : List Cell}

/-- A piece of the line begins where it says. -/
theorem Arranged.exists_of_mem (h : Arranged pieces line) (hmem : (column, piece) ∈ pieces) :
    ∃ front back, line = front ++ piece ++ back ∧ lineWidth front = column := by
  induction h with
  | nil => cases hmem
  | @concat pieces line column' h hcolumn piece' ih =>
    rcases List.mem_append.1 hmem with hmem | hmem
    · obtain ⟨front, back, rfl, hfront⟩ := ih hmem
      exact ⟨front, back ++ blanks (column' - lineWidth (front ++ piece ++ back)) ++ piece',
        by simp only [List.append_assoc], hfront⟩
    · obtain ⟨rfl, rfl⟩ := Prod.mk.inj (List.mem_singleton.1 hmem)
      refine ⟨line ++ blanks (column - lineWidth line), [], by simp, ?_⟩
      rw [lineWidth_fill, Nat.max_eq_left hcolumn]

/-- A line with a last piece is that piece behind an arranged line and blanks. -/
theorem Arranged.exists_of_concat (h : Arranged (pieces ++ [(column, piece)]) line) :
    ∃ front, Arranged pieces front ∧ lineWidth front ≤ column ∧
      line = front ++ blanks (column - lineWidth front) ++ piece := by
  generalize hpieces : pieces ++ [(column, piece)] = ps at h
  cases h with
  | nil => simp at hpieces
  | @concat pieces' front column' h hcolumn piece' =>
    obtain ⟨rfl, hlast⟩ := List.append_inj' hpieces rfl
    obtain ⟨rfl, rfl⟩ := Prod.mk.inj (List.head_eq_of_cons_eq hlast)
    exact ⟨front, h, hcolumn, rfl⟩

/-- A line ends with its last piece. -/
theorem Arranged.lineWidth_concat (h : Arranged (pieces ++ [(column, piece)]) line) :
    lineWidth line = column + lineWidth piece := by
  obtain ⟨front, -, hcolumn, rfl⟩ := h.exists_of_concat
  rw [lineWidth_append, lineWidth_fill, Nat.max_eq_left hcolumn]

theorem Arranged.eq_nil (h : Arranged [] line) : line = [] := by
  generalize hpieces : ([] : List (Nat × List Cell)) = ps at h
  cases h with
  | nil => rfl
  | concat => simp at hpieces

/-! ### Lines of frames beside each other -/

/-- The lines number `i` of frames of which number `k` begins at `column k`, each with the column
where it begins. -/
def piecesAt (column : Nat → Nat) (frames : List Frame) (i : Nat) : List (Nat × List Cell) :=
  frames.zipIdx.filterMap fun f => f.1.lines[i]?.map (column f.2, ·)

theorem piecesAt_concat (column : Nat → Nat) (frames : List Frame) (f : Frame) (i : Nat) :
    piecesAt column (frames ++ [f]) i =
      piecesAt column frames i ++ (f.lines[i]?.map (column frames.length, ·)).toList := by
  rw [piecesAt, List.zipIdx_append, List.filterMap_append, Nat.zero_add]
  cases h : f.lines[i]? <;> simp [piecesAt, h]

theorem mem_piecesAt {column : Nat → Nat} (hk : frames[k]? = some f) (hline : f.lines[i]? = some line) :
    (column k, line) ∈ piecesAt column frames i :=
  List.mem_filterMap.2 ⟨(f, k), List.mk_mem_zipIdx_iff_getElem?.2 hk, by rw [hline]; rfl⟩

theorem piecesAt_eq_nil (column : Nat → Nat) (h : ∀ f ∈ frames, f.height ≤ i) :
    piecesAt column frames i = [] := by
  refine List.filterMap_eq_nil_iff.2 fun f hf => ?_
  rw [List.getElem?_eq_none (h f.1 (List.fst_mem_of_mem_zipIdx hf)), Option.map_none]

theorem piecesAt_congr {column column' : Nat → Nat} (frames : List Frame)
    (h : ∀ k f, frames[k]? = some f → i < f.height → column k = column' k) :
    piecesAt column frames i = piecesAt column' frames i := by
  induction frames using List.reverseRecOn with
  | nil => rfl
  | append_singleton frames f ih =>
    have hframes (k : Nat) (g : Frame) (hk : frames[k]? = some g) (hi : i < g.height) :
        column k = column' k :=
      h k g (List.getElem?_append_left (List.getElem?_eq_some_iff.1 hk).1 ▸ hk) hi
    rw [piecesAt_concat, piecesAt_concat, ih hframes]
    cases hline : f.lines[i]? with
    | none => rfl
    | some line =>
      have hi : i < f.height := (List.getElem?_eq_some_iff.1 hline).1
      rw [h frames.length f (by simp) hi]

theorem getD_joinLines (width : Nat) (left right : List (List Cell)) (i : Nat) :
    (joinLines width left right).getD i [] = right[i]?.elim (left.getD i []) fun r =>
      left.getD i [] ++ blanks (width - lineWidth (left.getD i [])) ++ r := by
  induction left generalizing right i with
  | nil =>
    cases right with
    | nil => simp [joinLines]
    | cons r right =>
      have hempty : lineWidth [] = 0 := rfl
      rw [joinLines, List.getD_eq_getElem?_getD, List.getElem?_map]
      · cases (r :: right)[i]? <;> simp [hempty]
      · exact List.cons_ne_nil r right
  | cons l left ih =>
    cases right with
    | nil => simp [joinLines]
    | cons r right =>
      cases i with
      | zero => simp [joinLines]
      | succ i => simpa [joinLines] using ih right i

/-- A line of two frames beside each other is that on the left, and the one on the right behind it
if there is any: at the width of the left frame, or where the line on the left ends. -/
theorem lineAt_beside (left right : Frame) (i : Nat) :
    (left.beside right).lineAt i = right.lines[i]?.elim (left.lineAt i) fun r =>
      left.lineAt i ++ blanks (left.width - lineWidth (left.lineAt i)) ++ r :=
  getD_joinLines left.width left.lines right.lines i

theorem lineWidth_lineAt_beside (left right : Frame) (i : Nat) :
    lineWidth ((left.beside right).lineAt i) = right.lines[i]?.elim (lineWidth (left.lineAt i))
      fun r => max left.width (lineWidth (left.lineAt i)) + lineWidth r := by
  rw [lineAt_beside]
  cases right.lines[i]? with
  | none => rfl
  | some r => rw [Option.elim_some, Option.elim_some, lineWidth_append, lineWidth_fill]

/-- A frame beside an arranged one begins behind its line. -/
theorem Arranged.beside (h : Arranged pieces (left.lineAt i)) (right : Frame) :
    Arranged (pieces ++ (right.lines[i]?.map
      (max left.width (lineWidth (left.lineAt i)), ·)).toList) ((left.beside right).lineAt i) := by
  rw [lineAt_beside]
  cases right.lines[i]? with
  | none => simpa using h
  | some r =>
    have hfill : max left.width (lineWidth (left.lineAt i)) - lineWidth (left.lineAt i) =
        left.width - lineWidth (left.lineAt i) := by
      omega
    have hplaced := h.concat (Nat.le_max_right left.width _) r
    rwa [hfill] at hplaced

/-! ### A row of frames -/

/-- Frames put beside each other. -/
def sideBySide : List Frame → Frame
  | [] => { width := 0, lines := [] }
  | first :: rest => rest.foldl beside first

/-- The dot stays that of the first frame. -/
theorem sideBySide_concat (frames : List Frame) (f : Frame) :
    ∃ dot, sideBySide (frames ++ [f]) = { (sideBySide frames).beside f with dot := dot } := by
  cases frames with
  | nil =>
    refine ⟨f.dot, ?_⟩
    obtain ⟨width, lines, dot⟩ := f
    cases lines <;> simp [sideBySide, beside, joinLines, blanks]
  | cons first rest => exact ⟨_, List.foldl_append⟩

theorem width_sideBySide (frames : List Frame) :
    (sideBySide frames).width = total Frame.width frames := by
  induction frames using List.reverseRecOn with
  | nil => rfl
  | append_singleton frames f ih =>
    obtain ⟨dot, heq⟩ := sideBySide_concat frames f
    rw [heq, total_append, ← ih]
    rfl

theorem height_sideBySide (frames : List Frame) : (sideBySide frames).height = tallest frames := by
  induction frames using List.reverseRecOn with
  | nil => rfl
  | append_singleton frames f ih =>
    obtain ⟨dot, heq⟩ := sideBySide_concat frames f
    rw [heq, tallest_concat, ← ih]
    exact length_joinLines _ _ _

theorem lineAt_sideBySide_concat (frames : List Frame) (f : Frame) (i : Nat) :
    (sideBySide (frames ++ [f])).lineAt i = ((sideBySide frames).beside f).lineAt i := by
  obtain ⟨dot, heq⟩ := sideBySide_concat frames f
  rw [heq]
  rfl

/-- Columns that line `i` of the first `k` frames fills. -/
def filled (frames : List Frame) (i k : Nat) : Nat :=
  lineWidth ((sideBySide (frames.take k)).lineAt i)

/-- Where line `i` of frame `k` begins: at the widths of the frames before it together, or where
their line ends if that is further. -/
def start (frames : List Frame) (i k : Nat) : Nat :=
  max (total Frame.width (frames.take k)) (filled frames i k)

theorem filled_succ_of_eq_none (hk : frames[k]? = some f) (hline : f.lines[i]? = none) :
    filled frames i (k + 1) = filled frames i k := by
  rw [filled, List.take_add_one, hk, Option.toList_some, lineAt_sideBySide_concat,
    lineWidth_lineAt_beside, hline]
  rfl

theorem filled_succ_of_eq_some (hk : frames[k]? = some f) (hline : f.lines[i]? = some line) :
    filled frames i (k + 1) = start frames i k + lineWidth line := by
  rw [filled, List.take_add_one, hk, Option.toList_some, lineAt_sideBySide_concat,
    lineWidth_lineAt_beside, hline, width_sideBySide]
  rfl

/-- **What a line of frames beside each other is made of**: the lines of the frames that are so tall,
each where it begins, and blanks. -/
theorem arranged_sideBySide (frames : List Frame) (i : Nat) :
    Arranged (piecesAt (start frames i) frames i) ((sideBySide frames).lineAt i) := by
  induction frames using List.reverseRecOn with
  | nil => exact .nil
  | append_singleton frames f ih =>
    have hbefore (k : Nat) (hk : k ≤ frames.length) : start (frames ++ [f]) i k = start frames i k := by
      rw [start, start, filled, filled, List.take_append_of_le_length hk]
    have hlast : start (frames ++ [f]) i frames.length =
        max (sideBySide frames).width (lineWidth ((sideBySide frames).lineAt i)) := by
      rw [hbefore _ (Nat.le_refl _), start, filled, List.take_length, width_sideBySide]
    have hsame : piecesAt (start (frames ++ [f]) i) frames i = piecesAt (start frames i) frames i :=
      piecesAt_congr frames fun k g hk _ =>
        hbefore k (Nat.le_of_lt (List.getElem?_eq_some_iff.1 hk).1)
    rw [piecesAt_concat, hsame, hlast, lineAt_sideBySide_concat]
    exact ih.beside f

/-! ### Columns of one width -/

/-- Line `i` of frame `k` begins at `k` times the width: the frames before it have that width
together, or less, and the line of the last of them fills its column. -/
def LinesUp (each : Nat) (frames : List Frame) (i k : Nat) : Prop :=
  total Frame.width (frames.take k) = k * each ∨
    total Frame.width (frames.take k) < k * each ∧
      ∃ g line, frames[k - 1]? = some g ∧ g.lines[i]? = some line ∧ lineWidth line = each

section

variable (hnarrow : ∀ f ∈ frames, ∀ line ∈ f.lines, lineWidth line ≤ each)
include hnarrow

/-- Where columns begin at the multiples of a width, a line of them ends before the next one. -/
theorem filled_le {n : Nat} (hn : n ≤ frames.length)
    (h : ∀ k < n, ∀ f, frames[k]? = some f → i < f.height → start frames i k = k * each) :
    filled frames i n ≤ n * each := by
  induction n with
  | zero => exact Nat.le_of_eq (by rw [filled, List.take_zero, Nat.zero_mul]; rfl)
  | succ k ih =>
    have hle := ih (Nat.le_of_succ_le hn) fun j hj => h j (Nat.lt_succ_of_lt hj)
    obtain ⟨f, hk⟩ : ∃ f, frames[k]? = some f := ⟨_, List.getElem?_eq_getElem hn⟩
    rw [Nat.succ_mul]
    cases hline : f.lines[i]? with
    | none =>
      rw [filled_succ_of_eq_none hk hline]
      exact Nat.le_add_right_of_le hle
    | some line =>
      have hwidth := hnarrow f (List.mem_of_getElem? hk) line (List.mem_of_getElem? hline)
      rw [filled_succ_of_eq_some hk hline,
        h k (Nat.lt_succ_self k) f hk (List.getElem?_eq_some_iff.1 hline).1]
      exact Nat.add_le_add_left hwidth _

/-- **When columns begin at the multiples of a width** that none of their lines exceeds. -/
theorem start_eq_iff (i : Nat) :
    (∀ k f, frames[k]? = some f → i < f.height → start frames i k = k * each) ↔
      ∀ k f, frames[k]? = some f → i < f.height → LinesUp each frames i k := by
  constructor
  · intro h k f hk hi
    have hlength := (List.getElem?_eq_some_iff.1 hk).1
    have hstart := h k f hk hi
    rw [start] at hstart
    rcases Nat.lt_or_ge (total Frame.width (frames.take k)) (k * each) with hlt | hge
    · -- the line before ends here, and so it is that of the last column before
      cases k with
      | zero => omega
      | succ k =>
        have hpos : 0 < each := Nat.pos_of_mul_pos_left (Nat.zero_lt_of_lt hlt)
        rw [Nat.succ_mul] at hlt hstart
        have hle := filled_le hnarrow (n := k) (by omega) fun j _ => h j
        obtain ⟨g, hg⟩ : ∃ g, frames[k]? = some g := ⟨_, List.getElem?_eq_getElem (by omega)⟩
        refine .inr ⟨by rwa [Nat.succ_mul], g, ?_⟩
        cases hline : g.lines[i]? with
        | none =>
          rw [filled_succ_of_eq_none hg hline] at hstart
          omega
        | some line =>
          rw [filled_succ_of_eq_some hg hline,
            h k g hg (List.getElem?_eq_some_iff.1 hline).1] at hstart
          exact ⟨line, hg, rfl, by omega⟩
    · exact .inl (by omega)
  · intro h k
    induction k using Nat.strongRecOn with
    | ind k ih =>
      intro f hk hi
      have hlength := (List.getElem?_eq_some_iff.1 hk).1
      have hle := filled_le hnarrow (Nat.le_of_lt hlength) ih
      rw [start]
      rcases h k f hk hi with heq | ⟨hlt, g, line, hg, hline, hwidth⟩
      · omega
      · cases k with
        | zero => omega
        | succ k =>
          have hbefore := ih k (Nat.lt_succ_self k) g hg (List.getElem?_eq_some_iff.1 hline).1
          have hfilled : filled frames i (k + 1) = start frames i k + lineWidth line :=
            filled_succ_of_eq_some hg hline
          rw [hbefore, hwidth, ← Nat.succ_mul] at hfilled
          rw [hfilled]
          exact Nat.max_eq_right (Nat.le_of_lt hlt)

end

end Frame

end TerminalUI
