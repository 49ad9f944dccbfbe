import TerminalUI.Proofs.Frame.Beside

/-!
# Where columns begin

Columns of one width, and columns as wide as their content.

* `View.columns_begin_iff` : **where columns of one width begin**: at the multiples of it if the
  frames of all but the last have that width, which texts, code areas and rows of them do
  (`View.Steady`), and in general exactly where the columns before line up;
* `View.columns_begin_early` : columns that begin before they should, beside others that do not fill
  the width;
* `View.flexible_layout` : **the layout of columns as wide as their content**;
* `View.flexible_texts_width` : how wide texts in such columns are together, and when that is too
  much;
* `View.flexible_texts_too_wide` : two texts that are wider than they were asked to be.
-/

namespace TerminalUI

theorem total_eq_length_mul {α : Type} {f : α → Nat} {l : List α} {n : Nat} (h : ∀ a ∈ l, f a = n) :
    total f l = l.length * n := by
  induction l with
  | nil => simp
  | cons a l ih =>
    obtain ⟨ha, hl⟩ := List.forall_mem_cons.1 h
    rw [total_cons, ha, ih hl, List.length_cons, Nat.succ_mul, Nat.add_comm]

namespace Frame

variable {frames : List Frame} {each k : Nat}

/-- Frames of one width, but for the last one, have that width together at every column. -/
theorem total_width_take (h : ∀ g ∈ frames.dropLast, g.width = each) (hk : k < frames.length) :
    total Frame.width (frames.take k) = k * each := by
  have hbefore : frames.take k = frames.dropLast.take k := by
    rw [List.dropLast_eq_take, List.take_take, Nat.min_eq_left (by omega)]
  rw [total_eq_length_mul fun g hg => h g (List.mem_of_mem_take (hbefore ▸ hg)), List.length_take,
    Nat.min_eq_left (Nat.le_of_lt hk)]

end Frame

namespace View

variable {children columns : List View} {focus gap width height : Nat}

/-! ### Columns of one width -/

theorem renderColumns_eq_foldl (rest : List View) (each height : Nat) (left : Frame) :
    renderColumns rest each height left =
      (rest.map (·.render each height)).foldl Frame.beside left := by
  induction rest generalizing left with
  | nil => rfl
  | cons column rest ih => rw [renderColumns_cons, ih, List.map_cons, List.foldl_cons]

theorem render_columns (hne : children ≠ []) (focus width height : Nat) :
    (View.columns children focus).render width height =
      Frame.sideBySide (children.map (·.render (width / children.length) height)) := by
  cases children with
  | nil => exact absurd rfl hne
  | cons first rest =>
    rw [render_columns_cons, renderColumns_eq_foldl]
    rfl

/-- Views whose frames have the width that they are drawn for: texts, code areas, and rows of which
the first one is such a view. -/
inductive Steady : View → Prop where
  | empty : Steady .empty
  | text (spans : List StyledText) (dotAfter : Nat) : Steady (.text spans dotAfter)
  | code (layout : CodeLayout) : Steady (.code layout)
  | rows_nil (focus : Nat) : Steady (.rows [] focus)
  | rows_cons {first : View} (rest : List View) (focus : Nat) (h : Steady first) :
    Steady (.rows (first :: rest) focus)
  | columns_nil (focus : Nat) : Steady (.columns [] focus)

theorem width_renderRows (rest : List View) (focus width : Nat) (height : Int) (n i : Nat)
    (above : Frame) : (renderRows rest focus width height n i above).width = above.width := by
  induction rest generalizing i above with
  | nil => rfl
  | cons row rest ih =>
    rw [renderRows_cons]
    split
    · rfl
    · exact ih _ _

theorem Steady.width_render {v : View} (h : v.Steady) (width height : Nat) :
    (v.render width height).width = width := by
  induction h generalizing width height with
  | empty | rows_nil | columns_nil => rfl
  | text spans dotAfter =>
    exact (kept_writeSpans (Writer.kept_lined width) dotAfter 0 (Writer.lined_ofWidth width)
      spans).width_eq
  | code layout =>
    exact layout.kept_render (Writer.kept_lined width) (·.width = width) Writer.Lined.width_eq
      (fun _ _ h => h) (Writer.lined_ofWidth width) height
  | rows_cons rest focus _ ih =>
    rw [render_rows_cons, width_renderRows]
    exact ih _ _

/-- **Where columns of one width begin.** Each line of the frame is made of those of the columns and
of blanks. If no line of a column is wider than the column, the columns begin at the multiples of
that width just where the ones before line up: the widths of their frames add up to it, or to less
and the line of the last of them fills its column. So they do if the frames of all but the last are
as wide as they were drawn for. -/
theorem columns_begin_iff (hne : children ≠ []) (focus : Nat)
    (hnarrow : ∀ v ∈ children, ∀ line ∈ (v.render (width / children.length) height).lines,
      Frame.lineWidth line ≤ width / children.length) :
    let each := width / children.length
    let frames := children.map (·.render each height)
    let f := (View.columns children focus).render width height
    f.height = Frame.tallest frames ∧
    (∀ i, Frame.Arranged (Frame.piecesAt (Frame.start frames i) frames i) (f.lineAt i)) ∧
    (∀ i, (∀ k g, frames[k]? = some g → i < g.height → Frame.start frames i k = k * each) ↔
      ∀ k g, frames[k]? = some g → i < g.height → Frame.LinesUp each frames i k) ∧
    ((∀ v ∈ children.dropLast, v.Steady) →
      ∀ i, Frame.Arranged (Frame.piecesAt (· * each) frames i) (f.lineAt i)) := by
  intro each frames f
  have hf : f = Frame.sideBySide frames := render_columns hne focus width height
  have hlines : ∀ g ∈ frames, ∀ line ∈ g.lines, Frame.lineWidth line ≤ each := by
    intro g hg
    obtain ⟨v, hv, rfl⟩ := List.mem_map.1 hg
    exact hnarrow v hv
  have harranged := Frame.arranged_sideBySide frames
  have hiff := Frame.start_eq_iff hlines
  rw [hf]
  refine ⟨Frame.height_sideBySide frames, harranged, hiff, fun hsteady i => ?_⟩
  have hwidths : ∀ g ∈ frames.dropLast, g.width = each := by
    intro g hg
    rw [← List.map_dropLast] at hg
    obtain ⟨v, hv, rfl⟩ := List.mem_map.1 hg
    exact (hsteady v hv).width_render each height
  have hstarts := (hiff i).2 fun k g hk _ =>
    .inl (Frame.total_width_take hwidths (List.getElem?_eq_some_iff.1 hk).1)
  rw [← Frame.piecesAt_congr frames hstarts]
  exact harranged i

/-- Texts and rows of different heights. -/
def uneven : List View := [.plain "ab\nc", .rows [.plain "d", .plain "e"] 1, .plain "f\ng\nh"]

theorem columns_begin_iff_uneven :
    (uneven ≠ [] ∧ ∀ v ∈ uneven, ∀ line ∈ (v.render (11 / 3) 7).lines, Frame.lineWidth line ≤ 11 / 3) ∧
    (let frames := uneven.map (·.render (11 / 3) 7)
    let f := (View.columns uneven 0).render 11 7
    f.height = Frame.tallest frames ∧
    (∀ i, Frame.Arranged (Frame.piecesAt (Frame.start frames i) frames i) (f.lineAt i)) ∧
    (∀ i, (∀ k g, frames[k]? = some g → i < g.height → Frame.start frames i k = k * (11 / 3)) ↔
      ∀ k g, frames[k]? = some g → i < g.height → Frame.LinesUp (11 / 3) frames i k) ∧
    ((∀ v ∈ uneven.dropLast, v.Steady) →
      ∀ i, Frame.Arranged (Frame.piecesAt (· * (11 / 3)) frames i) (f.lineAt i))) ∧
    (List.range 3).map ((View.columns uneven 0).render 11 7).lineText =
      ["ab d  f", "c  e  g", "      h"] := by
  have hnarrow : ∀ v ∈ uneven, ∀ line ∈ (v.render (11 / 3) 7).lines, Frame.lineWidth line ≤ 11 / 3 := by
    decide +kernel
  exact ⟨⟨by simp [uneven], hnarrow⟩, columns_begin_iff (by simp [uneven]) 0 hnarrow, by decide +kernel⟩

/-- Three columns and a text beside them. -/
def nested : List View :=
  [.columns [.plain "a", .plain "b", .plain "c"] 0, .plain "d"]

/-- The three columns have nine of their ten columns, and the text begins where they end. -/
theorem columns_begin_early :
    (∀ v ∈ nested, ∀ line ∈ (v.render (20 / 2) 5).lines, Frame.lineWidth line ≤ 20 / 2) ∧
    ((View.plain "d").render (20 / 2) 5).lines[0]? = some [⟨"d", {}⟩] ∧
    ¬ ∃ front back, ((View.columns nested 0).render 20 5).lineAt 0 = front ++ [⟨"d", {}⟩] ++ back ∧
      Frame.lineWidth front = 1 * (20 / 2) := by
  refine ⟨by decide +kernel, by decide +kernel, ?_⟩
  rintro ⟨front, back, hline, hfront⟩
  have hwidth : Frame.lineWidth (((View.columns nested 0).render 20 5).lineAt 0) = 10 := by
    decide +kernel
  have hpiece : Frame.lineWidth [⟨"d", {}⟩] = 1 := by decide +kernel
  rw [hline, Frame.lineWidth_append, Frame.lineWidth_append, hfront, hpiece] at hwidth
  omega

/-! ### Columns as wide as their content -/

/-- The frames of columns as wide as their content. Each leaves the gap and one column for every
later one. -/
def flexibleFrames : List View → Nat → Nat → Nat → List Frame
  | [], _, _, _ => []
  | column :: rest, gap, width, height =>
    column.render (width - (gap + 1) * rest.length) height :: flexibleFrames rest gap width height

theorem getElem?_flexibleFrames (columns : List View) (gap width height k : Nat) :
    (flexibleFrames columns gap width height)[k]? =
      columns[k]?.map (·.render (width - (gap + 1) * (columns.length - 1 - k)) height) := by
  induction columns generalizing k with
  | nil => rfl
  | cons column rest ih =>
    cases k with
    | zero => simp [flexibleFrames]
    | succ k =>
      have hlater : rest.length + 1 - 1 - (k + 1) = rest.length - 1 - k := by omega
      rw [flexibleFrames, List.getElem?_cons_succ, List.getElem?_cons_succ, ih, List.length_cons,
        hlater]

theorem length_flexibleFrames (columns : List View) (gap width height : Nat) :
    (flexibleFrames columns gap width height).length = columns.length := by
  induction columns with
  | nil => rfl
  | cons column rest ih => rw [flexibleFrames, List.length_cons, ih, List.length_cons]

/-- Where frame `k` begins if each is as wide as its content, with a gap between them. -/
def contentStart (gap : Nat) (frames : List Frame) (k : Nat) : Nat :=
  total Frame.contentWidth (frames.take k) + k * gap

/-- The frame shows frames as wide as their content, with a gap between them. -/
structure Flexed (gap : Nat) (frames : List Frame) (f : Frame) : Prop where
  arranged (i : Nat) :
    Frame.Arranged (Frame.piecesAt (contentStart gap frames) frames i) (f.lineAt i)
  lineWidth_le (i : Nat) : Frame.lineWidth (f.lineAt i) ≤ f.width
  height_eq : f.height = max 1 (Frame.tallest frames)
  width_eq : f.width = total Frame.contentWidth frames + (frames.length - 1) * gap

variable {frames : List Frame} {f left right drawn : Frame}

theorem contentStart_append {k : Nat} (hk : k ≤ frames.length) (drawn : Frame) :
    contentStart gap (frames ++ [drawn]) k = contentStart gap frames k := by
  rw [contentStart, contentStart, List.take_append_of_le_length hk]

theorem flexed_empty (gap : Nat) : Flexed gap [] (.empty 0) where
  arranged i := by
    have hline : (Frame.empty 0).lineAt i = [] := by
      cases i <;> simp [Frame.lineAt, Frame.empty]
    rw [hline]
    exact .nil
  lineWidth_le i := by
    cases i <;> simp [Frame.lineAt, Frame.empty, Frame.lineWidth]
  height_eq := rfl
  width_eq := by simp [Frame.empty]

/-- The next frame goes where it begins, since no line before it reaches further. -/
theorem Flexed.beside (h : Flexed gap frames left) (hwidth : left.width ≤ right.width)
    (hlines : right.lines = left.lines) (hnext : right.width = contentStart gap frames frames.length)
    (drawn : Frame) :
    Flexed gap (frames ++ [drawn]) (right.beside { drawn with width := drawn.contentWidth }) := by
  have hline (i : Nat) : right.lineAt i = left.lineAt i := by rw [Frame.lineAt, hlines, Frame.lineAt]
  have hmax (i : Nat) : max right.width (Frame.lineWidth (right.lineAt i)) = right.width := by
    rw [hline]
    exact Nat.max_eq_left (Nat.le_trans (h.lineWidth_le i) hwidth)
  refine ⟨fun i => ?_, fun i => ?_, ?_, ?_⟩
  · have hsame : Frame.piecesAt (contentStart gap (frames ++ [drawn])) frames i =
        Frame.piecesAt (contentStart gap frames) frames i :=
      Frame.piecesAt_congr frames fun k g hk _ =>
        contentStart_append (Nat.le_of_lt (List.getElem?_eq_some_iff.1 hk).1) drawn
    have hplaced := (hline i ▸ h.arranged i).beside { drawn with width := drawn.contentWidth }
    rw [hmax, hnext] at hplaced
    rwa [Frame.piecesAt_concat, hsame, contentStart_append (Nat.le_refl _)]
  · have hleft := Nat.le_trans (h.lineWidth_le i) hwidth
    have hsum : (right.beside { drawn with width := drawn.contentWidth }).width =
        right.width + drawn.contentWidth := rfl
    rw [Frame.lineWidth_lineAt_beside, hmax, hsum, hline]
    cases hr : drawn.lines[i]? with
    | none => exact Nat.le_add_right_of_le hleft
    | some r =>
      exact Nat.add_le_add_left (Frame.lineWidth_le_contentWidth (List.mem_of_getElem? hr)) _
  · rw [Frame.height, Frame.length_beside, hlines, ← Frame.height, h.height_eq, Frame.tallest_concat,
      Nat.max_assoc]
    rfl
  · rw [total_append, List.length_append, Frame.beside, hnext, contentStart, List.take_length]
    simp only [total_cons, total_nil, List.length_singleton, Nat.add_sub_cancel]
    omega

theorem Flexed.renderFlexible (h : Flexed gap frames left) (columns : List View)
    (width height : Nat) :
    Flexed gap (frames ++ flexibleFrames columns gap width height)
      (renderFlexible columns gap width height frames.isEmpty left) := by
  induction columns generalizing frames left with
  | nil => rwa [flexibleFrames, List.append_nil]
  | cons column rest ih =>
    rw [renderFlexible_cons, flexibleFrames, List.append_cons]
    have hmore : (frames ++ [column.render (width - (gap + 1) * rest.length) height]).isEmpty =
        false := by
      simp
    rw [← hmore]
    apply ih
    have hwidth := h.width_eq
    cases frames with
    | nil =>
      have hnext : left.width = contentStart gap [] 0 := by simpa [contentStart] using hwidth
      exact h.beside (Nat.le_refl _) rfl hnext _
    | cons first others =>
      let right : Frame := { left with width := left.width + gap }
      have hgap : left.width ≤ right.width := Nat.le_add_right _ _
      have hnext : right.width = contentStart gap (first :: others) (others.length + 1) := by
        rw [List.length_cons, Nat.add_sub_cancel] at hwidth
        rw [contentStart, ← List.length_cons, List.take_length, List.length_cons, Nat.succ_mul]
        change left.width + gap = _
        omega
      exact h.beside hgap rfl hnext _

/-- **The layout of columns as wide as their content.** Every line of a column begins at the widths
of the ones before it together, and a gap for each of them. What is between those lines is blank. The
frame is as tall as the tallest column, or one line, and its width is that of the columns and gaps
together. -/
theorem flexible_layout (columns : List View) (focus gap width height : Nat) :
    let frames := flexibleFrames columns gap width height
    let f := (flexible columns focus gap).render width height
    (∀ (k i : Nat) (g : Frame) (line : List Cell), frames[k]? = some g → g.lines[i]? = some line →
      ∃ front back, f.lines[i]? = some (front ++ line ++ back) ∧
        Frame.lineWidth front = total Frame.contentWidth (frames.take k) + k * gap) ∧
    (∀ i, Frame.Arranged (Frame.piecesAt (fun k => total Frame.contentWidth (frames.take k) + k * gap)
      frames i) (f.lineAt i)) ∧
    f.height = max 1 (Frame.tallest frames) ∧
    f.width = total Frame.contentWidth frames + (columns.length - 1) * gap := by
  intro frames f
  have h : Flexed gap frames f := (flexed_empty gap).renderFlexible columns width height
  refine ⟨fun k i g line hk hline => ?_, h.arranged, h.height_eq, ?_⟩
  · have hi : i < f.height := by
      have hline := (List.getElem?_eq_some_iff.1 hline).1
      have htallest := Frame.height_le_tallest (List.mem_of_getElem? hk)
      have hheight := h.height_eq
      rw [Frame.height] at htallest
      omega
    obtain ⟨front, back, heq, hfront⟩ :=
      (h.arranged i).exists_of_mem (Frame.mem_piecesAt hk hline)
    exact ⟨front, back, by rw [Frame.getElem?_lines_of_lt hi, heq], hfront⟩
  · rw [h.width_eq, length_flexibleFrames]

/-! ### Texts in such columns -/

/-- The content is as wide as all columns and gaps together if the last column has a line. -/
theorem Flexed.contentWidth_eq {last : Frame} (h : Flexed gap (frames ++ [last]) f)
    (hlast : 0 < last.height) : f.contentWidth = f.width := by
  have hends {i : Nat} {line : List Cell} (hline : last.lines[i]? = some line) :
      contentStart gap frames frames.length + Frame.lineWidth line ≤ f.contentWidth := by
    have hi : i < f.height := by
      have hi : i < last.height := (List.getElem?_eq_some_iff.1 hline).1
      have hheight := h.height_eq
      rw [Frame.tallest_concat] at hheight
      omega
    have harranged := h.arranged i
    rw [Frame.piecesAt_concat, hline, contentStart_append (Nat.le_refl _)] at harranged
    rw [← harranged.lineWidth_concat]
    exact Frame.lineWidth_le_contentWidth (List.mem_of_getElem? (Frame.getElem?_lines_of_lt hi))
  have hwidth : f.width = contentStart gap frames frames.length + last.contentWidth := by
    rw [h.width_eq, contentStart, List.take_length, total_append, List.length_append]
    simp only [total_cons, total_nil, List.length_singleton, Nat.add_sub_cancel]
    omega
  refine Nat.le_antisymm ?_ ?_
  · refine Frame.contentWidth_le_iff.2 fun line hline => ?_
    obtain ⟨i, hi⟩ := List.getElem?_of_mem hline
    rw [← Frame.lineAt_of_eq_some hi]
    exact h.lineWidth_le i
  · have hfirst := hends (List.getElem?_eq_getElem hlast)
    have hcontent : last.contentWidth ≤
        f.contentWidth - contentStart gap frames frames.length := by
      refine Frame.contentWidth_le_iff.2 fun line hline => ?_
      obtain ⟨i, hi⟩ := List.getElem?_of_mem hline
      have := hends hi
      omega
    omega

/-- There is no content if no column has a line. -/
theorem Flexed.contentWidth_eq_zero (h : Flexed gap frames f) (hframes : ∀ g ∈ frames, g.height = 0) :
    f.contentWidth = 0 := by
  refine Nat.le_zero.1 (Frame.contentWidth_le_iff.2 fun line hline => ?_)
  obtain ⟨i, hi⟩ := List.getElem?_of_mem hline
  have harranged := h.arranged i
  rw [Frame.piecesAt_eq_nil _ fun g hg => by rw [hframes g hg]; exact Nat.zero_le i,
    Frame.lineAt_of_eq_some hi] at harranged
  rw [harranged.eq_nil]
  exact Nat.le_refl 0

variable {texts : List (List StyledText × Nat)} {k : Nat} {g : Frame}

theorem exists_renderText_of_getElem?_flexibleFrames
    (h : (flexibleFrames (texts.map fun t => View.text t.1 t.2) gap width height)[k]? = some g) :
    ∃ spans dotAfter,
      g = renderText spans dotAfter (width - (gap + 1) * (texts.length - 1 - k)) height := by
  rw [getElem?_flexibleFrames, List.getElem?_map, Option.map_map, List.length_map] at h
  obtain ⟨t, -, rfl⟩ := Option.map_eq_some_iff.1 h
  exact ⟨t.1, t.2, rfl⟩

/-- Texts fill the width of all columns and gaps together, since the last one has a line. -/
theorem contentWidth_flexible_texts (hne : texts ≠ []) (focus gap width height : Nat) :
    let children := texts.map fun t => View.text t.1 t.2
    ((flexible children focus gap).render width height).contentWidth =
      if height = 0 then 0 else
        total Frame.contentWidth (flexibleFrames children gap width height) +
          (texts.length - 1) * gap := by
  intro children
  have h : Flexed gap (flexibleFrames children gap width height)
      ((flexible children focus gap).render width height) :=
    (flexed_empty gap).renderFlexible children width height
  have hlength : (flexibleFrames children gap width height).length = texts.length := by
    rw [length_flexibleFrames, List.length_map]
  split
  · rename_i hheight
    refine h.contentWidth_eq_zero fun g hg => ?_
    obtain ⟨k, hk⟩ := List.getElem?_of_mem hg
    obtain ⟨spans, dotAfter, rfl⟩ := exists_renderText_of_getElem?_flexibleFrames hk
    exact Nat.le_zero.1 (hheight ▸ (renderText_fits spans dotAfter _ height).1)
  · rename_i hheight
    obtain hnil | ⟨others, last, hlast⟩ :=
      List.eq_nil_or_concat (flexibleFrames children gap width height)
    · exact absurd (List.length_eq_zero_iff.1 (by rw [← hlength, hnil, List.length_nil])) hne
    · rw [List.concat_eq_append] at hlast
      have hk : (flexibleFrames children gap width height)[others.length]? = some last := by
        rw [hlast, List.getElem?_concat_length]
      obtain ⟨spans, dotAfter, hrendered⟩ := exists_renderText_of_getElem?_flexibleFrames hk
      have hline : 0 < last.height := by
        rw [hrendered]
        exact Nat.zero_lt_of_lt
          ((renderText_fits spans dotAfter _ height).2 (Nat.pos_of_ne_zero hheight))
      have hflexed := h
      rw [hlast] at hflexed
      rw [hflexed.contentWidth_eq hline, h.width_eq, hlength]

/-- **How wide texts are together** in columns as wide as their content. None is wider than what it was
asked to leave to the later ones, but all of them with the gaps between them can be: the frame stays
inside the width just where they are not, unless there is no height for a line. -/
theorem flexible_texts_width (hne : texts ≠ [])
    (hwidth : (gap + 1) * (texts.length - 1) + 2 ≤ width) (focus height : Nat) :
    let children := texts.map fun t => View.text t.1 t.2
    let frames := flexibleFrames children gap width height
    let f := (flexible children focus gap).render width height
    let together := total Frame.contentWidth frames + (texts.length - 1) * gap
    (∀ k g, frames[k]? = some g →
      g.contentWidth ≤ width - (gap + 1) * (texts.length - 1 - k)) ∧
    f.contentWidth = (if height = 0 then 0 else together) ∧
    ((∀ line ∈ f.lines, Frame.lineWidth line ≤ width) ↔ height = 0 ∨ together ≤ width) := by
  intro children frames f together
  have hcontent : f.contentWidth = if height = 0 then 0 else together :=
    contentWidth_flexible_texts hne focus gap width height
  refine ⟨fun k g hk => ?_, hcontent, ?_⟩
  · obtain ⟨spans, dotAfter, rfl⟩ := exists_renderText_of_getElem?_flexibleFrames hk
    have hlater : (gap + 1) * (texts.length - 1 - k) ≤ (gap + 1) * (texts.length - 1) :=
      Nat.mul_le_mul_left _ (Nat.sub_le _ _)
    have hcontained := contained_renderText spans dotAfter
      (width - (gap + 1) * (texts.length - 1 - k)) height
    rw [Nat.max_eq_left (by omega)] at hcontained
    exact Frame.contentWidth_le_iff.2 fun _ hline => hcontained.lineWidth_le hline
  · rw [← Frame.contentWidth_le_iff, hcontent]
    by_cases hheight : height = 0 <;> simp [hheight]

/-- Two words. -/
def words : List (List StyledText × Nat) :=
  [([.plain "abc"], 0), ([.plain "de"], 0)]

theorem flexible_texts_width_words :
    (words ≠ [] ∧ (1 + 1) * (words.length - 1) + 2 ≤ 6) ∧
    (let children := words.map fun t => View.text t.1 t.2
    let frames := flexibleFrames children 1 6 1
    let f := (flexible children 0 1).render 6 1
    let together := total Frame.contentWidth frames + (words.length - 1) * 1
    (∀ k g, frames[k]? = some g → g.contentWidth ≤ 6 - (1 + 1) * (words.length - 1 - k)) ∧
    f.contentWidth = (if 1 = 0 then 0 else together) ∧
    ((∀ line ∈ f.lines, Frame.lineWidth line ≤ 6) ↔ 1 = 0 ∨ together ≤ 6)) ∧
    ((flexible (words.map fun t => View.text t.1 t.2) 0 1).render 6 1).lineText 0 = "abc de" :=
  ⟨⟨by simp [words], by decide⟩, flexible_texts_width (by simp [words]) (by decide) 0 1, by decide +kernel⟩

/-- The first text leaves one column for the second one, which takes two. -/
theorem flexible_texts_too_wide :
    (0 + 1) * (2 - 1) + 2 ≤ 4 ∧
    ¬ ∀ line ∈ ((flexible [.plain "aaa", .plain "bb"] 0 0).render 4 5).lines,
      Frame.lineWidth line ≤ 4 := by
  decide +kernel

end View

end TerminalUI
