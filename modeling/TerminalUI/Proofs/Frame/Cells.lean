import TerminalUI.Frame.Writer
import TerminalUI.Proofs.Text.Clusters

/-!
# Cells of clusters

A cluster of text is a line break, or it is shown in one cell (`Cell.shown?`): in caret form and in
inverse if it is an ASCII control character, and as it is otherwise. A writer does nothing else with
it (`Writer.cluster_eq`). The cell holds text and fills one or two columns, whatever the cluster
(`Cell.Shown.text_ne_empty`, `Cell.Shown.width_le`).
-/

namespace TerminalUI

namespace Cell

/-- The cell that shows a cluster, unless the cluster is a line break. -/
def shown? (g : String) (style : Style) : Option Cell :=
  if isLineBreak g then none
  else match caretForm g with
    | some caret => some ⟨caret, style.withAttribute .inverse⟩
    | none => some ⟨g, style⟩

/-- The cell shows a cluster of some text. -/
def Shown (c : Cell) : Prop :=
  ∃ (s g : String) (style : Style), g ∈ clusters s ∧ shown? g style = some c

theorem shown_blank (style : Style) : Shown ⟨" ", style⟩ :=
  ⟨" ", " ", style, by decide, rfl⟩

end Cell

/-- A caret form is that of an ASCII control character. -/
theorem exists_of_caretForm_eq_some {g caret : String} (h : caretForm g = some caret) :
    ∃ n < 128, (n < 0x20 ∨ n = 0x7F) ∧ caret = String.ofList ['^', Char.ofNat (n ^^^ 0x40)] := by
  unfold caretForm at h
  split at h
  · split at h
    · rename_i c _ hcontrol
      simp only [Bool.or_eq_true, decide_eq_true_eq, beq_iff_eq] at hcontrol
      cases h
      exact ⟨c.toNat, by omega, hcontrol, rfl⟩
    · cases h
  · cases h

/-- A caret form fills two columns. -/
theorem displayWidth_of_caretForm {g caret : String} (h : caretForm g = some caret) :
    displayWidth caret = 2 := by
  have hascii : ∀ n < 128, n < 0x20 ∨ n = 0x7F →
      displayWidth (String.ofList ['^', Char.ofNat (n ^^^ 0x40)]) = 2 := by
    decide +kernel
  obtain ⟨n, hn, hcontrol, rfl⟩ := exists_of_caretForm_eq_some h
  exact hascii n hn hcontrol

/-- A cell that shows a cluster holds text. -/
theorem Cell.Shown.text_ne_empty {c : Cell} (h : c.Shown) : c.text ≠ "" := by
  obtain ⟨s, g, style, hg, hshown⟩ := h
  unfold Cell.shown? at hshown
  split at hshown
  · cases hshown
  · split at hshown
    · rename_i caret hcaret
      cases hshown
      obtain ⟨n, -, -, rfl⟩ := exists_of_caretForm_eq_some hcaret
      simp
    · cases hshown
      exact ne_empty_of_mem_clusters hg

/-- Every cell that holds text fills a column. -/
theorem Cell.width_pos {c : Cell} (h : c.text ≠ "") : 0 < c.width := displayWidth_pos h

theorem Cell.Shown.width_le {c : Cell} (h : c.Shown) : c.width ≤ 2 := by
  obtain ⟨s, g, style, hg, hshown⟩ := h
  unfold Cell.shown? at hshown
  split at hshown
  · cases hshown
  · split at hshown
    · rename_i caret hcaret
      cases hshown
      exact Nat.le_of_eq (displayWidth_of_caretForm hcaret)
    · cases hshown
      rw [Cell.width, displayWidth_of_mem_clusters hg]
      exact clusterWidth_le_two g

/-- A writer starts a new line for a cluster, or writes the cell that shows it. -/
theorem Writer.cluster_eq {s g : String} (hg : g ∈ clusters s) (w : Writer) (style : Style) :
    w.cluster g style = match Cell.shown? g style with
      | none => w.newLine
      | some c => w.cell c c.width := by
  have hwidth : clusterWidth g = (⟨g, style⟩ : Cell).width := (displayWidth_of_mem_clusters hg).symm
  unfold Writer.cluster Cell.shown?
  split
  · rfl
  · rw [hwidth]
    cases caretForm g <;> rfl

end TerminalUI
