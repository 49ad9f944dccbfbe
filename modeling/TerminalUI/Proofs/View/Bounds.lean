import TerminalUI.Proofs.View.Fitting

/-!
# Bounds of frames

How tall the frame of a view can be, and where its dot can be, for every nesting of views.

* `Writer.kept_narrow` : writing never leaves the dot beyond the width, or beyond two columns;
* `View.bounded_rows`, `View.bounded_columns`, `View.bounded_flexible` : a box keeps to the bounds
  that its children keep to;
* `View.dotBelow` : the one way in which the dot of a view can miss its lines;
* `View.render_bounds` : the bounds of every frame, with the exact condition for the dot to be on a
  line;
* `View.render_rows_in_row` : a box of rows in a row for which the condition fails;
* `View.dot_line_render_rows_lt` : it holds of every box of rows without another one in its rows.
-/

namespace TerminalUI

/-- Bounds of a frame. The dot may come right below the last line. -/
structure Frame.Within (f : Frame) (width height : Nat) : Prop where
  height_le : f.lines.length ≤ height
  dot_line_le : f.dot.line ≤ f.lines.length
  dot_column_le : f.dot.column ≤ width

theorem Frame.within_empty (columns width height : Nat) :
    (empty columns).Within width (max 1 height) where
  height_le := Nat.le_max_left 1 height
  dot_line_le := Nat.zero_le _
  dot_column_le := Nat.zero_le _

namespace Writer

/-- Nothing is written, and the dot is not set, beyond the width, or beyond two columns where that
is less. -/
structure Narrow (width : Nat) (w : Writer) : Prop where
  width_eq : w.width = width
  column_le : w.column ≤ max width 2
  dot_column_le : w.dot.column ≤ max width 2

theorem narrow_ofWidth (width : Nat) : Narrow width (ofWidth width) :=
  ⟨rfl, Nat.zero_le _, Nat.zero_le _⟩

theorem kept_narrow (width : Nat) : Kept (Narrow width) where
  setDot h := ⟨h.width_eq, h.column_le, h.column_le⟩
  newLine h := ⟨h.width_eq, Nat.zero_le _, h.dot_column_le⟩
  cell {w} h c hc := by
    obtain ⟨rfl, hcolumn, hdot⟩ := h
    have hwidth := hc.width_le
    unfold Writer.cell
    split
    · exact ⟨rfl, by simp only [newLine]; omega, hdot⟩
    · exact ⟨rfl, by dsimp only; omega, hdot⟩

end Writer

namespace View

/-- Induction on a view, in which a box may use what holds of all its children. -/
@[elab_as_elim]
theorem nested_induction {P : View → Prop} (empty : P .empty)
    (text : ∀ spans dotAfter, P (.text spans dotAfter)) (code : ∀ layout, P (.code layout))
    (rows : ∀ children focus, (∀ v ∈ children, P v) → P (.rows children focus))
    (columns : ∀ children focus, (∀ v ∈ children, P v) → P (.columns children focus))
    (flexible : ∀ children focus gap, (∀ v ∈ children, P v) → P (.flexible children focus gap))
    (v : View) : P v :=
  @View.rec P (fun children => ∀ v ∈ children, P v) empty text code rows columns flexible
    (fun _ h => nomatch h) (fun _ _ hv ih => List.forall_mem_cons.mpr ⟨hv, ih⟩) v

mutual

/-- Does the dot come right below the last line? It does in a text or a code area that has no
height, in rows where it does in the one that the dot is taken from and no later one has a line, and
in columns where it does in the first one and no other is taller. -/
def dotBelow : View → Nat → Nat → Bool
  | .empty, _, _ => false
  | .text _ _, _, height => height = 0
  | .code _, _, height => height = 0
  | .rows [] _, _, _ => false
  | .rows (first :: rest) focus, width, height =>
    let n := rest.length + 1
    let room := (signedWord height - n - 1).toNat
    rowsDotBelow rest focus width (signedWord height) n 1 (first.render width room)
      (first.dotBelow width room)
  | .columns [] _, _, _ => false
  | .columns (first :: rest) _, width, height =>
    let each := width / (rest.length + 1)
    first.dotBelow each height &&
      rest.all fun column => (column.render each height).height ≤ (first.render each height).height
  | .flexible _ _ _, _, _ => false

/-- Does the dot come right below the last line when further rows are drawn? `below` tells it of the
frame above them. -/
def rowsDotBelow : List View → Nat → Nat → Int → Nat → Nat → Frame → Bool → Bool
  | [], _, _, _, _, _, _, below => below
  | row :: rest, focus, width, height, n, i, above, below =>
    let room := budget height above.lines.length n i
    if room ≤ 0 then below
    else
      let drawn := row.render width room.toNat
      rowsDotBelow rest focus width height n (i + 1) (above.below drawn (i = focus))
        (if i = focus then row.dotBelow width room.toNat else below && drawn.lines.isEmpty)

end

theorem dotBelow_columns_cons (first : View) (rest : List View) (focus width height : Nat) :
    (columns (first :: rest) focus).dotBelow width height =
      (first.dotBelow (width / (rest.length + 1)) height &&
        rest.all fun column =>
          (column.render (width / (rest.length + 1)) height).height ≤
            (first.render (width / (rest.length + 1)) height).height) :=
  rfl

theorem rowsDotBelow_cons (row : View) (rest : List View) (focus width : Nat) (height : Int)
    (n i : Nat) (above : Frame) (below : Bool) :
    rowsDotBelow (row :: rest) focus width height n i above below =
      if budget height above.lines.length n i ≤ 0 then below
      else
        let drawn := row.render width (budget height above.lines.length n i).toNat
        rowsDotBelow rest focus width height n (i + 1) (above.below drawn (i = focus))
          (if i = focus then row.dotBelow width (budget height above.lines.length n i).toNat
            else below && drawn.lines.isEmpty) :=
  rfl

end View

/-! ### Texts and code areas -/

/-- A frame that fits is within bounds, and its dot is on one of its lines unless there are none. -/
theorem Frame.Fits.within {f : Frame} {width height : Nat} (h : f.Fits height)
    (hline : f.dot.line ≤ f.lines.length - 1) (hcolumn : f.dot.column ≤ width) :
    f.Within width (max 1 height) ∧ (f.dot.line = f.lines.length ↔ height = 0) := by
  obtain ⟨hlines, hdot⟩ := h
  exact ⟨⟨by omega, by omega, hcolumn⟩, by omega⟩

namespace CodeLayout

theorem dot_column_render_le (v : CodeLayout) (width height : Nat) :
    (v.render width height).dot.column ≤ max width 2 :=
  v.kept_render (Writer.kept_narrow width) (fun f => f.dot.column ≤ max width 2)
    Writer.Narrow.dot_column_le (fun _ _ h => h) (Writer.narrow_ofWidth width) height

theorem dot_line_render_le (v : CodeLayout) (width height : Nat) :
    (v.render width height).dot.line ≤ (v.render width height).lines.length - 1 := by
  unfold render window
  split
  · exact Nat.le_sub_one_of_lt (v.dot_fullFrame_lt width)
  · split
    · exact Frame.dot_line_trim_le _ _ _
    · exact Frame.dot_line_trim_le _ _ _

end CodeLayout

theorem View.dot_column_renderText_le (spans : List StyledText) (dotAfter width height : Nat) :
    (renderText spans dotAfter width height).dot.column ≤ max width 2 :=
  (kept_writeSpans (Writer.kept_narrow width) dotAfter 0 (Writer.narrow_ofWidth width)
    spans).dot_column_le

/-! ### Frames below and beside each other -/

namespace Frame

variable {upper lower left right : Frame} {width limit : Nat}

theorem length_below (upper lower : Frame) (moveDot : Bool) :
    (upper.below lower moveDot).lines.length = upper.lines.length + lower.lines.length :=
  List.length_append

theorem dot_line_below (upper lower : Frame) (moveDot : Bool) :
    (upper.below lower moveDot).dot.line =
      if moveDot then upper.lines.length + lower.dot.line else upper.dot.line := by
  unfold Frame.below
  split <;> rfl

theorem Within.below {height : Nat} (hupper : upper.Within width limit)
    (hlower : lower.Within width height) (hheight : upper.lines.length + height ≤ limit)
    (moveDot : Bool) : (upper.below lower moveDot).Within width limit := by
  have hlength := length_below upper lower moveDot
  refine ⟨?_, ?_, ?_⟩
  · have := hlower.height_le
    omega
  · rw [hlength, dot_line_below]
    split
    · exact Nat.add_le_add_left hlower.dot_line_le _
    · exact Nat.le_add_right_of_le hupper.dot_line_le
  · unfold Frame.below
    split
    · exact hlower.dot_column_le
    · exact hupper.dot_column_le

theorem length_joinLines (width : Nat) (left right : List (List Cell)) :
    (joinLines width left right).length = max left.length right.length := by
  induction left generalizing right with
  | nil => cases right <;> simp [joinLines]
  | cons l left ih =>
    cases right with
    | nil => simp [joinLines]
    | cons r right =>
      rw [joinLines, List.length_cons, ih, List.length_cons, List.length_cons]
      omega

theorem length_beside (left right : Frame) :
    (left.beside right).lines.length = max left.lines.length right.lines.length :=
  length_joinLines _ _ _

end Frame

namespace View

variable {rest : List View} {focus width n i limit : Nat} {height : Int} {above : Frame}
  {below : Bool}

/-- Bounds of the frames of a view, for every size. -/
structure Bounded (v : View) : Prop where
  within (width height : Nat) : (v.render width height).Within (max width 2) (max 1 height)
  dotBelow_iff (width height : Nat) :
    (v.render width height).dot.line = (v.render width height).lines.length ↔
      v.dotBelow width height = true

/-- Further rows stay within the height, as each of them gets at most what is left of it. -/
theorem renderRows_within (hrows : ∀ row ∈ rest, row.Bounded)
    (habove : above.Within (max width 2) limit) (hlimit : height ≤ limit) :
    (renderRows rest focus width height n i above).Within (max width 2) limit := by
  induction rest generalizing i above with
  | nil => exact habove
  | cons row rest ih =>
    obtain ⟨hrow, hrest⟩ := List.forall_mem_cons.mp hrows
    rw [renderRows_cons]
    split
    · exact habove
    · refine ih hrest (habove.below (hrow.within width _) ?_ _)
      unfold budget at *
      omega

/-- The dot comes right below further rows just when it does below the last one of them, or when it
came right below the frame above and none of them has a line. -/
theorem dot_renderRows_iff (hrows : ∀ row ∈ rest, row.Bounded)
    (habove : above.dot.line ≤ above.lines.length)
    (hbelow : above.dot.line = above.lines.length ↔ below = true) :
    (renderRows rest focus width height n i above).dot.line =
        (renderRows rest focus width height n i above).lines.length ↔
      rowsDotBelow rest focus width height n i above below = true := by
  induction rest generalizing i above below with
  | nil => exact hbelow
  | cons row rest ih =>
    obtain ⟨hrow, hrest⟩ := List.forall_mem_cons.mp hrows
    rw [renderRows_cons, rowsDotBelow_cons]
    dsimp only
    split
    · exact hbelow
    have hline := (hrow.within width (budget height above.lines.length n i).toNat).dot_line_le
    have hiff := hrow.dotBelow_iff width (budget height above.lines.length n i).toNat
    generalize row.render width (budget height above.lines.length n i).toNat = drawn at *
    apply ih hrest
    · rw [Frame.dot_line_below, Frame.length_below]
      split <;> omega
    · rw [Frame.dot_line_below, Frame.length_below]
      by_cases hfocus : i = focus
      · rw [if_pos (decide_eq_true hfocus), if_pos hfocus, ← hiff, Nat.add_left_cancel_iff]
      · rw [if_neg (by simpa using hfocus), if_neg hfocus, Bool.and_eq_true, ← hbelow,
          List.isEmpty_iff_length_eq_zero]
        omega

/-- The dot of columns is that of the first one. -/
theorem dot_renderColumns (columns : List View) (each height : Nat) (left : Frame) :
    (renderColumns columns each height left).dot = left.dot := by
  induction columns generalizing left with
  | nil => rfl
  | cons column rest ih => exact ih (left.beside (column.render each height))

/-- Columns are as tall as the tallest one. -/
theorem length_renderColumns_le_iff {columns : List View} {each height m : Nat} {left : Frame} :
    (renderColumns columns each height left).lines.length ≤ m ↔
      left.lines.length ≤ m ∧ ∀ v ∈ columns, (v.render each height).lines.length ≤ m := by
  induction columns generalizing left with
  | nil => exact ⟨fun h => ⟨h, List.forall_mem_nil _⟩, And.left⟩
  | cons column rest ih =>
    rw [renderColumns_cons, ih, Frame.length_beside, Nat.max_le, List.forall_mem_cons, and_assoc]

theorem length_le_renderColumns (columns : List View) (each height : Nat) (left : Frame) :
    left.lines.length ≤ (renderColumns columns each height left).lines.length :=
  (length_renderColumns_le_iff.mp (Nat.le_refl _)).1

/-- The dot comes right below columns just when it does below the first one and no other is taller.
-/
theorem dot_renderColumns_iff {columns : List View} {each height : Nat} {left : Frame}
    (hleft : left.dot.line ≤ left.lines.length) :
    (renderColumns columns each height left).dot.line =
        (renderColumns columns each height left).lines.length ↔
      left.dot.line = left.lines.length ∧
        ∀ v ∈ columns, (v.render each height).lines.length ≤ left.lines.length := by
  have hle := length_le_renderColumns columns each height left
  rw [dot_renderColumns]
  constructor
  · intro hdot
    have hline : left.dot.line = left.lines.length := by omega
    have hge : (renderColumns columns each height left).lines.length ≤ left.lines.length := by
      omega
    exact ⟨hline, (length_renderColumns_le_iff.mp hge).2⟩
  · rintro ⟨hline, hcolumns⟩
    have hge : (renderColumns columns each height left).lines.length ≤ left.lines.length :=
      length_renderColumns_le_iff.mpr ⟨Nat.le_refl _, hcolumns⟩
    omega

theorem dot_renderFlexible (columns : List View) (gap width height : Nat) (isFirst : Bool)
    (left : Frame) :
    (renderFlexible columns gap width height isFirst left).dot = left.dot := by
  induction columns generalizing isFirst left with
  | nil => rfl
  | cons column rest ih =>
    rw [renderFlexible_cons, ih]
    cases isFirst <;> rfl

theorem length_le_renderFlexible (columns : List View) (gap width height : Nat) (isFirst : Bool)
    (left : Frame) :
    left.lines.length ≤ (renderFlexible columns gap width height isFirst left).lines.length := by
  induction columns generalizing isFirst left with
  | nil => exact Nat.le_refl _
  | cons column rest ih =>
    rw [renderFlexible_cons]
    refine Nat.le_trans ?_ (ih _ _)
    rw [Frame.length_beside]
    cases isFirst <;> exact Nat.le_max_left _ _

/-- Columns as wide as their content are no taller than the tallest one, whatever their widths. -/
theorem length_renderFlexible_le {columns : List View} {gap width height m : Nat} {isFirst : Bool}
    {left : Frame} (hleft : left.lines.length ≤ m)
    (hcolumns : ∀ v ∈ columns, ∀ width, (v.render width height).lines.length ≤ m) :
    (renderFlexible columns gap width height isFirst left).lines.length ≤ m := by
  induction columns generalizing isFirst left with
  | nil => exact hleft
  | cons column rest ih =>
    obtain ⟨hcolumn, hrest⟩ := List.forall_mem_cons.mp hcolumns
    rw [renderFlexible_cons]
    refine ih ?_ hrest
    rw [Frame.length_beside]
    cases isFirst <;> exact Nat.max_le.mpr ⟨hleft, hcolumn _⟩

/-! ### Every view -/

theorem bounded_of_eq_empty {v : View}
    (hrender : ∀ width height, v.render width height = .empty width)
    (hbelow : ∀ width height, v.dotBelow width height = false) : v.Bounded := by
  refine ⟨fun width height => ?_, fun width height => ?_⟩
  · rw [hrender]
    exact Frame.within_empty _ _ _
  · rw [hrender, hbelow]
    simp [Frame.empty]

theorem bounded_text (spans : List StyledText) (dotAfter : Nat) :
    (text spans dotAfter).Bounded := by
  have hfits (width height : Nat) := (renderText_fits spans dotAfter width height).within
    (Frame.dot_line_trim_le _ _ _) (dot_column_renderText_le spans dotAfter width height)
  refine ⟨fun width height => ?_, fun width height => ?_⟩
  · rw [render_text]
    exact (hfits width height).1
  · rw [render_text]
    exact (hfits width height).2.trans decide_eq_true_iff.symm

theorem bounded_code (layout : CodeLayout) : (code layout).Bounded := by
  have hfits (width height : Nat) := (layout.render_fits width height).within
    (layout.dot_line_render_le width height) (layout.dot_column_render_le width height)
  refine ⟨fun width height => ?_, fun width height => ?_⟩
  · rw [render_code]
    exact (hfits width height).1
  · rw [render_code]
    exact (hfits width height).2.trans decide_eq_true_iff.symm

theorem bounded_rows (children : List View) (focus : Nat) (h : ∀ v ∈ children, v.Bounded) :
    (rows children focus).Bounded := by
  cases children with
  | nil => exact bounded_of_eq_empty (fun _ _ => rfl) fun _ _ => rfl
  | cons first rest =>
    obtain ⟨hfirst, hrest⟩ := List.forall_mem_cons.mp h
    refine ⟨fun width height => ?_, fun width height => ?_⟩
    · rw [render_rows_cons]
      have hword := signedWord_le height
      have hfirst := hfirst.within width (signedWord height - (rest.length + 1 : Nat) - 1).toNat
      refine renderRows_within hrest ⟨?_, hfirst.dot_line_le, hfirst.dot_column_le⟩ (by omega)
      have := hfirst.height_le
      omega
    · rw [render_rows_cons]
      exact dot_renderRows_iff hrest (hfirst.within width _).dot_line_le
        (hfirst.dotBelow_iff width _)

theorem bounded_columns (children : List View) (focus : Nat) (h : ∀ v ∈ children, v.Bounded) :
    (columns children focus).Bounded := by
  cases children with
  | nil => exact bounded_of_eq_empty (fun _ _ => rfl) fun _ _ => rfl
  | cons first rest =>
    obtain ⟨hfirst, hrest⟩ := List.forall_mem_cons.mp h
    refine ⟨fun width height => ?_, fun width height => ?_⟩
    · have hwidth := Nat.div_le_self width (rest.length + 1)
      rw [render_columns_cons]
      generalize width / (rest.length + 1) = each at hwidth
      have hleft := hfirst.within each height
      refine ⟨?_, ?_, ?_⟩
      · exact length_renderColumns_le_iff.mpr
          ⟨hleft.height_le, fun v hv => ((hrest v hv).within each height).height_le⟩
      · rw [dot_renderColumns]
        exact Nat.le_trans hleft.dot_line_le (length_le_renderColumns _ _ _ _)
      · rw [dot_renderColumns]
        have := hleft.dot_column_le
        omega
    · rw [render_columns_cons, dotBelow_columns_cons, Bool.and_eq_true, List.all_eq_true, ← hfirst.dotBelow_iff,
        dot_renderColumns_iff (hfirst.within _ height).dot_line_le]
      exact and_congr_right fun _ => forall₂_congr fun _ _ => decide_eq_true_iff.symm

theorem bounded_flexible (children : List View) (focus gap : Nat)
    (h : ∀ v ∈ children, v.Bounded) : (flexible children focus gap).Bounded := by
  have hpos (width height : Nat) :
      0 < ((flexible children focus gap).render width height).lines.length := by
    rw [render_flexible]
    exact length_le_renderFlexible children gap width height true (.empty 0)
  have hdot (width height : Nat) :
      ((flexible children focus gap).render width height).dot = {} := by
    rw [render_flexible, dot_renderFlexible]
    rfl
  refine ⟨fun width height => ⟨?_, ?_, ?_⟩, fun width height => ?_⟩
  · rw [render_flexible]
    exact length_renderFlexible_le (Nat.le_max_left _ _)
      fun v hv width => ((h v hv).within width height).height_le
  · rw [hdot]
    exact Nat.zero_le _
  · rw [hdot]
    exact Nat.zero_le _
  · rw [hdot]
    exact iff_of_false (Nat.ne_of_lt (hpos width height)) Bool.false_ne_true

/-- Every view keeps to its bounds. -/
theorem bounded (v : View) : v.Bounded :=
  nested_induction
    (bounded_of_eq_empty (fun _ _ => rfl) fun _ _ => rfl)
    bounded_text bounded_code bounded_rows bounded_columns bounded_flexible v

/-- The dot is on a line, or on the first one if there are none, unless it comes right below the last
line. -/
theorem dot_line_render_lt_iff (v : View) (width height : Nat) :
    (v.render width height).dot.line < max 1 (v.render width height).lines.length ↔
      ¬ (v.dotBelow width height = true ∧ 0 < (v.render width height).lines.length) := by
  have hline := (v.bounded.within width height).dot_line_le
  rw [← v.bounded.dotBelow_iff]
  omega

/-- **Bounds of frames.** The frame of a view has at most the lines that it may have, or one, and
its dot is within the width, or two columns. The dot is on one of its lines, or on the first one if
there are none, with a single exception: it comes right below the last line where the row that it is
taken from has no line (`View.dotBelow`). -/
theorem render_bounds (v : View) (width height : Nat) :
    (v.render width height).lines.length ≤ max 1 height ∧
      (v.render width height).dot.column ≤ max width 2 ∧
      (v.render width height).dot.line ≤ (v.render width height).lines.length ∧
      ((v.render width height).dot.line < max 1 (v.render width height).lines.length ↔
        ¬ (v.dotBelow width height = true ∧ 0 < (v.render width height).lines.length)) := by
  obtain ⟨hheight, hline, hcolumn⟩ := v.bounded.within width height
  exact ⟨hheight, hcolumn, hline, v.dot_line_render_lt_iff width height⟩

/-- Rows in a row that has room for one line: none of the inner ones is drawn, and the dot comes
below the line of the outer one. -/
theorem render_rows_in_row :
    let v := rows [plain "a", rows [plain "b"] 0] 1
    (v.render 10 6).lines.length = 1 ∧
      ¬ (v.render 10 6).dot.line < max 1 (v.render 10 6).lines.length := by
  decide +kernel

/-! ### Rows without rows in them -/

/-- Does the dot of the view come from a box of rows? -/
def dotFromRows : View → Bool
  | .rows (_ :: _) _ => true
  | .columns (first :: _) _ => first.dotFromRows
  | _ => false

/-- The dot of any other view misses its lines only where there is no height, and no line. -/
theorem lines_eq_nil_of_dotBelow (v : View) {width height : Nat} (hv : v.dotFromRows = false)
    (hbelow : v.dotBelow width height = true) :
    height = 0 ∧ (v.render width height).lines = [] := by
  induction v using nested_induction generalizing width with
  | empty => exact absurd hbelow Bool.false_ne_true
  | text spans dotAfter =>
    have hzero : height = 0 := decide_eq_true_iff.mp hbelow
    subst hzero
    rw [render_text]
    exact ⟨rfl, List.length_eq_zero_iff.mp
      (Nat.le_zero.mp (renderText_fits spans dotAfter width 0).1)⟩
  | code layout =>
    have hzero : height = 0 := decide_eq_true_iff.mp hbelow
    subst hzero
    rw [render_code]
    exact ⟨rfl, List.length_eq_zero_iff.mp (Nat.le_zero.mp (layout.render_fits width 0).1)⟩
  | rows children focus =>
    cases children with
    | nil => exact absurd hbelow Bool.false_ne_true
    | cons first rest => simp [dotFromRows] at hv
  | columns children focus ih =>
    cases children with
    | nil => exact absurd hbelow Bool.false_ne_true
    | cons first rest =>
      rw [dotBelow_columns_cons, Bool.and_eq_true, List.all_eq_true] at hbelow
      obtain ⟨hfirst, hrest⟩ := hbelow
      obtain ⟨hzero, hlines⟩ := ih first List.mem_cons_self (by simpa [dotFromRows] using hv) hfirst
      refine ⟨hzero, List.length_eq_zero_iff.mp (Nat.le_zero.mp ?_)⟩
      rw [render_columns_cons, length_renderColumns_le_iff, hlines]
      refine ⟨Nat.le_refl 0, fun v hmem => ?_⟩
      have hle := decide_eq_true_iff.mp (hrest v hmem)
      rwa [Frame.height, Frame.height, hlines] at hle
  | flexible children focus gap => exact absurd hbelow Bool.false_ne_true

theorem renderRows_lines_eq_nil (hrows : ∀ row ∈ rest, row.dotFromRows = false)
    (habove : below = true → above.lines = [])
    (hbelow : rowsDotBelow rest focus width height n i above below = true) :
    (renderRows rest focus width height n i above).lines = [] := by
  induction rest generalizing i above below with
  | nil => exact habove hbelow
  | cons row rest ih =>
    obtain ⟨hrow, hrest⟩ := List.forall_mem_cons.mp hrows
    rw [rowsDotBelow_cons] at hbelow
    rw [renderRows_cons]
    split at hbelow
    · rename_i hroom
      rw [if_pos hroom]
      exact habove hbelow
    · rename_i hroom
      rw [if_neg hroom]
      refine ih hrest (fun hnext => ?_) hbelow
      split at hnext
      · have hzero := (row.lines_eq_nil_of_dotBelow hrow hnext).1
        omega
      · obtain ⟨hlast, hempty⟩ := Bool.and_eq_true_iff.mp hnext
        exact List.append_eq_nil_iff.mpr ⟨habove hlast, List.isEmpty_iff.mp hempty⟩

/-- **A box of rows keeps its dot on a line**, at every size, if no row takes its dot from another box
of rows. -/
theorem dot_line_render_rows_lt (children : List View) (focus width height : Nat)
    (h : ∀ v ∈ children, v.dotFromRows = false) :
    ((rows children focus).render width height).dot.line <
      max 1 ((rows children focus).render width height).lines.length := by
  rw [dot_line_render_lt_iff]
  rintro ⟨hbelow, hpos⟩
  cases children with
  | nil => exact absurd hbelow Bool.false_ne_true
  | cons first rest =>
    obtain ⟨hfirst, hrest⟩ := List.forall_mem_cons.mp h
    rw [render_rows_cons] at hpos
    have hnil := renderRows_lines_eq_nil hrest
      (fun hb => (first.lines_eq_nil_of_dotBelow hfirst hb).2) hbelow
    rw [hnil] at hpos
    exact Nat.lt_irrefl 0 hpos

end View

end TerminalUI
