import Mathlib.Data.List.GetD
import TerminalUI.Terminal.Drawing

/-!
# What commands do to a screen

A screen is an unbounded grid of slots with a cursor on it and the style that texts are printed in.
Nothing wraps and nothing scrolls. `Screen.exec` gives each command the meaning that terminals
document: going up goes up one line at least, clearing goes from the cursor to the end of the
screen, a printed text goes to the columns from the cursor on, in the style that is set, and a line
break leads to the start of the next line. Printed texts are taken to be without control
characters, which frames hold in caret form.

* `Screen.run_setStyle` : setting a style leaves exactly that style set, whatever was set before.
* `Screen.run_drawLine` : the cells of a line are printed one after another, each in its own style,
  provided that the style taken to be set at the start is set.
* `Screen.run_moveUp` : going up by a distance that a command can have, and not at all by none.
-/

namespace TerminalUI

/-! ### Sets of attributes -/

namespace AttributeSet

theorem ext_contains {s t : AttributeSet} (h : ∀ a, s.contains a = t.contains a) : s = t := by
  cases s
  cases t
  simp only [mk.injEq]
  exact ⟨h .bold, h .dim, h .italic, h .underline, h .blink, h .inverse⟩

theorem mem_toList {s : AttributeSet} {a : Attribute} : a ∈ s.toList ↔ s.contains a = true := by
  simp only [toList, List.mem_filter, and_iff_right_iff_imp]
  intro _
  cases a <;> decide

theorem contains_foldl_insert (as : List Attribute) (s : AttributeSet) (a : Attribute) :
    (as.foldl insert s).contains a = (s.contains a || decide (a ∈ as)) := by
  induction as generalizing s with
  | nil => simp
  | cons b as ih =>
    rw [List.foldl_cons, ih, contains_insert, Bool.or_assoc]
    by_cases h : b = a
    · simp [h]
    · have hbeq : (b == a) = false := beq_eq_false_iff_ne.mpr h
      simp [hbeq, Ne.symm h]

/-- A set is what its attributes add up to. -/
theorem foldl_insert_toList (s : AttributeSet) : s.toList.foldl insert {} = s := by
  apply ext_contains
  intro a
  rw [contains_foldl_insert]
  have hnone : contains {} a = false := by cases a <;> rfl
  simp [hnone, mem_toList]

end AttributeSet

/-! ### Slots -/

/-- What a column of a row shows. -/
inductive Slot where
  /-- Nothing. -/
  | blank
  /-- A cluster, from this column on, in the style it was printed in. -/
  | cluster (text : String) (style : Style)
  /-- More of the cluster to the left. -/
  | rest
  deriving DecidableEq, Repr

namespace Slot

/-- The slots that a cluster fills. -/
def ofCluster (style : Style) (g : String) : List Slot :=
  match clusterWidth g with
  | 0 => []
  | n + 1 => .cluster g style :: List.replicate n .rest

/-- The slots that a text in one style fills. -/
def ofText (style : Style) (s : String) : List Slot := (clusters s).flatMap (ofCluster style)

/-- The slots that the cells of a line fill, each in its own style. -/
def ofLine (line : List Cell) : List Slot := line.flatMap fun c => ofText c.style c.text

theorem length_ofCluster (style : Style) (g : String) :
    (ofCluster style g).length = clusterWidth g := by
  unfold ofCluster
  split <;> simp [*]

theorem length_ofText (style : Style) (s : String) :
    (ofText style s).length = displayWidth s := by
  unfold ofText displayWidth
  induction clusters s with
  | nil => rfl
  | cons g gs ih => simp [length_ofCluster, ih]

/-- **A line takes as many columns on the screen as the frame counts for it.** -/
theorem length_ofLine (line : List Cell) : (ofLine line).length = Frame.lineWidth line := by
  unfold ofLine Frame.lineWidth
  induction line with
  | nil => rfl
  | cons c line ih => simp [length_ofText, ih, Cell.width]

@[simp]
theorem ofLine_nil : ofLine [] = [] := rfl

theorem ofLine_cons (c : Cell) (line : List Cell) :
    ofLine (c :: line) = ofText c.style c.text ++ ofLine line := rfl

end Slot

/-! ### Screens -/

/-- The state of a terminal's screen. Rows are counted from any fixed one, also those above it. -/
structure Screen where
  /-- What the columns of the rows show. -/
  slots : Int → Nat → Slot
  /-- The row of the cursor. -/
  row : Int
  /-- The column of the cursor. -/
  column : Nat
  /-- The style that texts are printed in. -/
  style : Style
  /-- Is the cursor visible? -/
  visible : Bool

namespace Screen

/-- Fills slots from the cursor on and moves the cursor past them. -/
def put (s : Screen) (text : List Slot) : Screen :=
  { s with
    slots := fun r j =>
      if r = s.row ∧ s.column ≤ j then text.getD (j - s.column) (s.slots r j) else s.slots r j
    column := s.column + text.length }

/-- What a command does to the screen. -/
def exec (s : Screen) : Command → Screen
  | .cursor visible => { s with visible }
  | .up lines => { s with row := s.row - max 1 lines }
  | .column n => { s with column := n }
  | .clearBelow =>
    { s with
      slots := fun r j =>
        if s.row < r ∨ r = s.row ∧ s.column ≤ j then .blank else s.slots r j }
  | .reset => { s with style := {} }
  | .foreground c => { s with style := { s.style with foreground := c } }
  | .background c => { s with style := { s.style with background := c } }
  | .turnOn a => { s with style := s.style.withAttribute a }
  | .print text => s.put (Slot.ofText s.style text)
  | .lineBreak => { s with row := s.row + 1, column := 0 }
  | .bracketedPaste _ => s

/-- What commands do to the screen, one after another. -/
def run (s : Screen) (commands : List Command) : Screen := commands.foldl exec s

variable (s : Screen)

@[simp]
theorem run_nil : s.run [] = s := rfl

@[simp]
theorem run_cons (c : Command) (cs : List Command) : s.run (c :: cs) = (s.exec c).run cs := rfl

@[simp]
theorem run_append (cs ds : List Command) : s.run (cs ++ ds) = (s.run cs).run ds :=
  List.foldl_append

@[simp]
theorem put_nil : s.put [] = s := by
  cases s
  simp [put]

theorem put_put (as bs : List Slot) : (s.put as).put bs = s.put (as ++ bs) := by
  simp only [put, List.length_append, Nat.add_assoc, mk.injEq, and_true]
  funext r j
  by_cases hr : r = s.row
  · simp only [hr, true_and]
    by_cases hj : s.column + as.length ≤ j
    · -- right of the first text nothing was put by it
      have hsub : j - (s.column + as.length) = j - s.column - as.length := by omega
      have hlen : as.length ≤ j - s.column := by omega
      rw [if_pos hj, if_pos (by omega), if_pos (by omega), List.getD_append_right _ _ _ _ hlen,
        List.getD_eq_default _ _ hlen, hsub]
    · rw [if_neg hj]
      by_cases hc : s.column ≤ j
      · rw [if_pos hc, if_pos hc, List.getD_append _ _ _ _ (by omega)]
      · rw [if_neg hc, if_neg hc]
  · simp only [hr, false_and, if_false]

/-! ### Styles -/

theorem run_turnOn (as : List Attribute) :
    s.run (as.map .turnOn) =
      { s with style := { s.style with attributes := as.foldl .insert s.style.attributes } } := by
  induction as generalizing s with
  | nil => rfl
  | cons a as ih =>
    rw [List.map_cons, run_cons, ih]
    rfl

/-- **Setting a style leaves exactly that style set.** The reset comes first, so nothing of the
style before is left. -/
theorem run_setStyle (st : Style) : s.run (Drawing.setStyle st) = { s with style := st } := by
  simp only [Drawing.setStyle, run_append, run_cons, run_nil, exec, run_turnOn,
    AttributeSet.foldl_insert_toList]

/-- The style taken to be set is the one that is set. None is always right. -/
def Agrees (current : Option Style) : Prop := ∀ st, current = some st → s.style = st

theorem run_drawCell {current : Option Style} (h : s.Agrees current) (c : Cell) :
    s.run (Drawing.drawCell current c) =
      { s.put (Slot.ofText c.style c.text) with style := c.style } := by
  unfold Drawing.drawCell
  by_cases hc : current = some c.style
  · have hst : s.style = c.style := h c.style hc
    simp [hc, exec, ← hst, put]
  · simp [hc, exec, run_setStyle, put]

/-- **The cells of a line are printed one after another, each in its own style.** What carries the
induction over the cells is that the style taken to be set is set. -/
theorem run_drawLine {current : Option Style} (h : s.Agrees current) (line : List Cell) :
    ∃ style, s.run (Drawing.drawLine current line) = { s.put (Slot.ofLine line) with style } ∧
      Agrees { s.put (Slot.ofLine line) with style } (Drawing.styleAfter current line) := by
  induction line generalizing s current with
  | nil => exact ⟨s.style, by simp [Drawing.drawLine], by simpa [Drawing.styleAfter] using h⟩
  | cons c line ih =>
    have hc : Agrees { s.put (Slot.ofText c.style c.text) with style := c.style } (some c.style) :=
      fun st hst => Option.some.inj hst
    obtain ⟨style, hrun, hagrees⟩ := ih _ hc
    have hput : { ({ s.put (Slot.ofText c.style c.text) with style := c.style } : Screen).put
        (Slot.ofLine line) with style } = { s.put (Slot.ofLine (c :: line)) with style } := by
      rw [Slot.ofLine_cons, ← put_put]
      rfl
    refine ⟨style, ?_, ?_⟩
    · rw [Drawing.drawLine, run_append, run_drawCell s h, hrun, hput]
    · rw [← hput]
      exact hagrees

/-! ### Going up -/

/-- Going up by none sends nothing, since a command for none would go up by one. -/
theorem run_moveUp {n : Nat} (h : n ≤ Drawing.farthest) :
    s.run (Drawing.moveUp n) = { s with row := s.row - n } := by
  unfold Drawing.moveUp
  by_cases hn : n = 0
  · simp [hn]
  · have hmax : max 1 n = n := by omega
    rw [if_neg hn, Nat.min_eq_left h]
    simp only [run_cons, run_nil, exec]
    congr 2
    omega

end Screen

end TerminalUI
