import Mathlib.Algebra.Group.Int.Defs
import Mathlib.Algebra.Group.Nat.Defs
import TerminalUI.Proofs.View.Bounds

/-!
# More height never shows less

A row that is given one more line may use it, and then every later row has as much room as before, or
it may not, and then the next row has one more line. So one more line of height gives every view as
many lines as before, or one more (`OneMore`), and no row is lost.

* `View.rowFrames`, `View.render_rows` : the frames of the rows that have room, and that a box of rows
  puts these below each other;
* `View.drawnRows_taller` : what one more line of height does to the rows below a frame;
* `View.render_taller` : **one more line of height** gives every view at most one more line, and
  every box of rows at least as many rows.
-/

namespace TerminalUI

/-- The second number is the first one, or one more. -/
def OneMore (m n : Nat) : Prop := n = m ∨ n = m + 1

namespace OneMore

variable {m n m' n' k : Nat}

theorem refl (m : Nat) : OneMore m m := .inl rfl

theorem max (h : OneMore m n) (h' : OneMore m' n') : OneMore (max m m') (max n n') := by
  unfold OneMore at *
  omega

theorem min_succ (m n : Nat) : OneMore (min m n) (min (m + 1) n) := by
  unfold OneMore
  omega

end OneMore

theorem Frame.height_beside (left right : Frame) :
    (left.beside right).height = max left.height right.height :=
  length_beside left right

namespace CodeLayout

/-- The window around the dot is as tall as it may be, up to the whole frame. -/
theorem length_window {f : Frame} (h : f.dot.line < f.lines.length) (height : Nat) :
    (window f height).lines.length = min height f.lines.length := by
  unfold window
  split
  · omega
  · split <;> simp only [Frame.trim, List.length_drop, List.length_take] <;> omega

end CodeLayout

namespace View

theorem length_renderText (spans : List StyledText) (dotAfter width height : Nat) :
    (renderText spans dotAfter width height).lines.length =
      min height (writeSpans dotAfter 0 (.ofWidth width) spans).finish.lines.length := by
  simp [renderText, Frame.trim]

/-! ### The rows that have room -/

/-- The frames of further rows below a number of lines, from row number `i` of `n` on, until one has
no room. -/
def drawnRows : List View → Nat → Int → Nat → Nat → Nat → List Frame
  | [], _, _, _, _, _ => []
  | row :: rest, width, height, n, i, lines =>
    let room := budget height lines n i
    if room ≤ 0 then []
    else
      let drawn := row.render width room.toNat
      drawn :: drawnRows rest width height n (i + 1) (lines + drawn.lines.length)

/-- The frames of the rows that have room in a box of rows. -/
def rowFrames : List View → Nat → Nat → List Frame
  | [], _, _ => []
  | first :: rest, width, height =>
    let n := rest.length + 1
    let drawn := first.render width (signedWord height - n - 1).toNat
    drawn :: drawnRows rest width (signedWord height) n 1 drawn.lines.length

/-- Frames of rows below each other; the dot is that of the focused row, if it is one of them. -/
def stack (width focus : Nat) : List Frame → Frame
  | [] => .empty width
  | first :: frames =>
    (frames.zipIdx 1).foldl (fun above row => above.below row.1 (row.2 = focus)) first

variable {rest children : List View} {width focus n i lines lines' : Nat} {height : Int}
  {above left left' : Frame}

theorem renderRows_eq_foldl :
    renderRows rest focus width height n i above =
      ((drawnRows rest width height n i above.height).zipIdx i).foldl
        (fun above row => above.below row.1 (row.2 = focus)) above := by
  induction rest generalizing i above with
  | nil => rfl
  | cons row rest ih =>
    rw [renderRows_cons, drawnRows, Frame.height]
    dsimp only
    split
    · rfl
    · rw [ih, Frame.height, Frame.length_below, List.zipIdx_cons, List.foldl_cons]

/-- A box of rows shows the rows that have room, and no others. -/
theorem render_rows (children : List View) (focus width height : Nat) :
    (rows children focus).render width height =
      stack width focus (rowFrames children width height) := by
  cases children with
  | nil => rfl
  | cons first rest =>
    rw [render_rows_cons, renderRows_eq_foldl, rowFrames, stack]
    rfl

theorem height_foldl_below (frames : List (Frame × Nat)) (above : Frame) :
    (frames.foldl (fun above row => above.below row.1 (row.2 = focus)) above).height =
      above.height + total (fun row => row.1.height) frames := by
  induction frames generalizing above with
  | nil => rfl
  | cons row frames ih =>
    rw [List.foldl_cons, ih, total_cons, Frame.height, Frame.length_below]
    exact Nat.add_assoc _ _ _

theorem total_height_zipIdx (frames : List Frame) (i : Nat) :
    total (fun row => row.1.height) (frames.zipIdx i) = total Frame.height frames := by
  induction frames generalizing i with
  | nil => rfl
  | cons drawn frames ih => rw [List.zipIdx_cons, total_cons, total_cons, ih]

theorem height_stack {frames : List Frame} (h : frames ≠ []) (width focus : Nat) :
    (stack width focus frames).height = total Frame.height frames := by
  cases frames with
  | nil => exact absurd rfl h
  | cons first frames => rw [stack, height_foldl_below, total_height_zipIdx, total_cons]

/-! ### One more line of height -/

/-- One more line of height gives at most one more line. -/
def Taller (v : View) : Prop :=
  ∀ width height, height + 1 < 2 ^ 63 →
    OneMore (v.render width height).height (v.render width (height + 1)).height

theorem height_render_le (v : View) (width height : Nat) :
    (v.render width height).height ≤ max 1 height :=
  (v.bounded.within width height).height_le

theorem drawnRows_eq_nil (hroom : budget height lines n i ≤ 0) :
    drawnRows rest width height n i lines = [] := by
  cases rest with
  | nil => rfl
  | cons row rest => rw [drawnRows, if_pos hroom]

theorem drawnRows_cons {row : View} {room : Nat} (hroom : budget height lines n i = room)
    (hpos : 0 < room) :
    drawnRows (row :: rest) width height n i lines =
      row.render width room ::
        drawnRows rest width height n (i + 1) (lines + (row.render width room).height) := by
  rw [drawnRows, hroom, if_neg (by omega)]
  rfl

/-- Below as many lines, or one more, one more line of height makes room for at least as many rows,
and there are as many lines in all, or one more. -/
theorem drawnRows_taller (hrows : ∀ row ∈ rest, row.Taller) (hheight : height + 1 < 2 ^ 63)
    (hlines : OneMore lines lines') :
    OneMore (lines + total Frame.height (drawnRows rest width height n i lines))
        (lines' + total Frame.height (drawnRows rest width (height + 1) n i lines')) ∧
      (drawnRows rest width height n i lines).length ≤
        (drawnRows rest width (height + 1) n i lines').length := by
  induction rest generalizing i lines lines' with
  | nil => exact ⟨hlines, Nat.le_refl 0⟩
  | cons row rest ih =>
    obtain ⟨hrow, hrest⟩ := List.forall_mem_cons.mp hrows
    have hsteps (d d' : Nat) (hd : OneMore (lines + d) (lines' + d')) := ih (i := i + 1) hrest hd
    rcases Int.lt_or_le 0 (budget height lines n i) with hpos | hle
    · obtain ⟨room, hroom⟩ := Int.eq_ofNat_of_zero_le (Int.le_of_lt hpos)
      rw [drawnRows_cons hroom (by omega), total_cons, List.length_cons, ← Nat.add_assoc]
      rcases hlines with rfl | rfl
      · -- this row has one more line of room
        have hroom' : budget (height + 1) lines' n i = (room + 1 : Nat) := by
          unfold budget at *
          omega
        have hword : room + 1 < 2 ^ 63 := by
          unfold budget at hroom
          omega
        rw [drawnRows_cons hroom' (by omega), total_cons, List.length_cons, ← Nat.add_assoc,
          Nat.add_le_add_iff_right]
        refine hsteps _ _ ?_
        have := hrow width room hword
        unfold OneMore at *
        omega
      · -- the rows above have taken the line, and this one has the room it had
        have hroom' : budget (height + 1) (lines + 1) n i = room := by
          unfold budget at *
          omega
        rw [drawnRows_cons hroom' (by omega), total_cons, List.length_cons, ← Nat.add_assoc,
          Nat.add_le_add_iff_right]
        exact hsteps _ _ (.inr (by omega))
    · rw [drawnRows_eq_nil hle]
      refine ⟨?_, Nat.zero_le _⟩
      rcases Int.lt_or_le 0 (budget (height + 1) lines' n i) with hpos' | hle'
      · -- the line is the only one for this row, and none is left for the next
        obtain rfl : lines' = lines := by
          unfold budget OneMore at *
          omega
        have hroom' : budget (height + 1) lines' n i = (1 : Nat) := by
          unfold budget at *
          omega
        have hone := row.height_render_le width 1
        have hnext : budget (height + 1) (lines' + (row.render width 1).height) n (i + 1) ≤ 0 := by
          unfold budget at *
          omega
        rw [drawnRows_cons hroom' Nat.one_pos, drawnRows_eq_nil hnext]
        simp only [total_cons, total_nil]
        unfold OneMore
        omega
      · rw [drawnRows_eq_nil hle']
        exact hlines

/-- The first row has no room where the height is no more than what is kept free. -/
theorem rowFrames_cons (first : View) {height : Nat} (hheight : height < 2 ^ 63) :
    rowFrames (first :: rest) width height =
      first.render width (height - (rest.length + 2)) ::
        drawnRows rest width height (rest.length + 1) 1
          (first.render width (height - (rest.length + 2))).height := by
  have hroom : ((height : Int) - (rest.length + 1 : Nat) - 1).toNat = height - (rest.length + 2) := by
    omega
  rw [rowFrames, signedWord_of_lt hheight, hroom]
  rfl

theorem Taller.sub {v : View} (h : v.Taller) {height : Nat} (hheight : height + 1 < 2 ^ 63)
    (width free : Nat) :
    OneMore (v.render width (height - free)).height (v.render width (height + 1 - free)).height := by
  rcases Nat.lt_or_ge height free with hlt | hge
  · rw [Nat.sub_eq_zero_of_le (Nat.le_of_lt hlt), Nat.sub_eq_zero_of_le hlt]
    exact .refl _
  · rw [Nat.sub_add_comm hge]
    exact h width (height - free) (by omega)

/-- One more line of height gives rows at most one more line, and makes room for no fewer rows. -/
theorem rowFrames_taller (hrows : ∀ row ∈ children, row.Taller) (width : Nat) {height : Nat}
    (hheight : height + 1 < 2 ^ 63) :
    OneMore (total Frame.height (rowFrames children width height))
        (total Frame.height (rowFrames children width (height + 1))) ∧
      (rowFrames children width height).length ≤ (rowFrames children width (height + 1)).length := by
  cases children with
  | nil => exact ⟨.refl 0, Nat.le_refl 0⟩
  | cons first rest =>
    obtain ⟨hfirst, hrest⟩ := List.forall_mem_cons.mp hrows
    rw [rowFrames_cons first (by omega), rowFrames_cons first hheight]
    simp only [total_cons, List.length_cons, Nat.add_le_add_iff_right]
    exact drawnRows_taller hrest (mod_cast hheight) (hfirst.sub hheight width _)

/-! ### Every view -/

theorem taller_rows (focus : Nat) (h : ∀ v ∈ children, v.Taller) :
    (rows children focus).Taller := by
  intro width height hheight
  rw [render_rows, render_rows]
  cases children with
  | nil => exact .refl _
  | cons first rest =>
    rw [height_stack (by simp [rowFrames]), height_stack (by simp [rowFrames])]
    exact (rowFrames_taller h width hheight).1

theorem renderColumns_taller {columns : List View} {each height : Nat}
    (hheight : height + 1 < 2 ^ 63) (h : ∀ v ∈ columns, v.Taller)
    (hleft : OneMore left.height left'.height) :
    OneMore (renderColumns columns each height left).height
      (renderColumns columns each (height + 1) left').height := by
  induction columns generalizing left left' with
  | nil => exact hleft
  | cons column rest ih =>
    obtain ⟨hcolumn, hrest⟩ := List.forall_mem_cons.mp h
    rw [renderColumns_cons, renderColumns_cons]
    refine ih hrest ?_
    rw [Frame.height_beside, Frame.height_beside]
    exact hleft.max (hcolumn each height hheight)

theorem taller_columns (focus : Nat) (h : ∀ v ∈ children, v.Taller) :
    (columns children focus).Taller := by
  intro width height hheight
  cases children with
  | nil => exact .refl _
  | cons first rest =>
    obtain ⟨hfirst, hrest⟩ := List.forall_mem_cons.mp h
    rw [render_columns_cons, render_columns_cons]
    exact renderColumns_taller hheight hrest (hfirst _ height hheight)

theorem renderFlexible_taller {columns : List View} {gap height : Nat} {isFirst : Bool}
    (hheight : height + 1 < 2 ^ 63) (h : ∀ v ∈ columns, v.Taller)
    (hleft : OneMore left.height left'.height) :
    OneMore (renderFlexible columns gap width height isFirst left).height
      (renderFlexible columns gap width (height + 1) isFirst left').height := by
  induction columns generalizing isFirst left left' with
  | nil => exact hleft
  | cons column rest ih =>
    obtain ⟨hcolumn, hrest⟩ := List.forall_mem_cons.mp h
    rw [renderFlexible_cons, renderFlexible_cons]
    refine ih hrest ?_
    rw [Frame.height_beside, Frame.height_beside]
    refine .max ?_ (hcolumn _ height hheight)
    cases isFirst <;> exact hleft

theorem taller_flexible (focus gap : Nat) (h : ∀ v ∈ children, v.Taller) :
    (flexible children focus gap).Taller := by
  intro width height hheight
  rw [render_flexible, render_flexible]
  exact renderFlexible_taller hheight h (.refl _)

/-- Texts and code areas are cut to the height. -/
theorem taller_of_min {v : View}
    (h : ∀ width, ∃ full, ∀ height, (v.render width height).height = min height full) :
    v.Taller := by
  intro width height _
  obtain ⟨full, hfull⟩ := h width
  rw [hfull, hfull]
  exact .min_succ height full

theorem taller (v : View) : v.Taller := by
  induction v using nested_induction with
  | empty =>
    intro width height _
    exact .refl _
  | text spans dotAfter =>
    exact taller_of_min fun width => ⟨_, fun height => by
      rw [render_text, Frame.height, length_renderText]⟩
  | code layout =>
    exact taller_of_min fun width => ⟨_, fun height => by
      rw [render_code, Frame.height, CodeLayout.render,
        CodeLayout.length_window (layout.dot_fullFrame_lt width)]⟩
  | rows children focus ih => exact taller_rows focus ih
  | columns children focus ih => exact taller_columns focus ih
  | flexible children focus gap ih => exact taller_flexible focus gap ih

/-- **More height never shows less.** One more line of height gives every view as many lines, or one
more. A box of rows shows the rows that have room, and no fewer of them. -/
theorem render_taller {height : Nat} (hheight : height < 2 ^ 63 - 1) (width : Nat) :
    (∀ v : View, OneMore (v.render width height).height (v.render width (height + 1)).height) ∧
      ∀ children : List View,
        (∀ focus height, (rows children focus).render width height =
          stack width focus (rowFrames children width height)) ∧
        (rowFrames children width height).length ≤
          (rowFrames children width (height + 1)).length := by
  have hword : height + 1 < 2 ^ 63 := by omega
  refine ⟨fun v => v.taller width height hword, fun children => ⟨fun focus height => ?_, ?_⟩⟩
  · exact render_rows children focus width height
  · exact (rowFrames_taller (fun v _ => v.taller) width hword).2

/-- The second row has room from a height of six lines on. -/
theorem render_taller_five :
    ((∀ v : View, OneMore (v.render 10 5).height (v.render 10 6).height) ∧
      ∀ children : List View,
        (∀ focus height, (rows children focus).render 10 height =
          stack 10 focus (rowFrames children 10 height)) ∧
        (rowFrames children 10 5).length ≤ (rowFrames children 10 6).length) ∧
    (rowFrames [plain "a", plain "b"] 10 5).length = 1 ∧
      (rowFrames [plain "a", plain "b"] 10 6).length = 2 :=
  ⟨render_taller (by decide) 10, by decide +kernel, by decide +kernel⟩

/-- The next size is read as a negative one, for which rows have no room. -/
example : ((rows [plain "a"] 0).render 10 (2 ^ 63 - 1)).height = 1 ∧
    ((rows [plain "a"] 0).render 10 (2 ^ 63)).height = 0 := by
  decide +kernel

end View

end TerminalUI
