import TerminalUI.Frame.Basic
import TerminalUI.Style.StyledText

/-!
# Writing text into a frame

A writer lays text out cluster by cluster. A cluster that does not fit into the rest of a line goes
to the next one, unless the line is still empty; a line break starts a new line, and an ASCII
control character is shown in its caret form, in inverse.
-/

namespace TerminalUI

/-- A frame that is being written. -/
structure Writer where
  /-- Width of the lines. -/
  width : Nat
  /-- The lines above the current one, last first. -/
  above : List (List Cell) := []
  /-- The cells of the current line, last first. -/
  line : List Cell := []
  /-- Columns that the current line fills. -/
  column : Nat := 0
  /-- Where the dot was set. -/
  dot : Position := {}
  deriving Repr

namespace Writer

/-- A writer of lines of the given width, which has written nothing. -/
def ofWidth (width : Nat) : Writer where
  width := width

/-- Where the next cell goes. -/
def head (w : Writer) : Position := ⟨w.above.length, w.column⟩

/-- Sets the dot to where the next cell goes. -/
def setDot (w : Writer) : Writer := { w with dot := w.head }

/-- Starts a new line. -/
def newLine (w : Writer) : Writer :=
  { w with above := w.line.reverse :: w.above, line := [], column := 0 }

/-- Writes a cell, on a new line if it does not fit. -/
def cell (w : Writer) (c : Cell) (width : Nat) : Writer :=
  let w := if w.column > 0 ∧ w.column + width > w.width then w.newLine else w
  { w with line := c :: w.line, column := w.column + width }

/-- Writes a cluster. -/
def cluster (w : Writer) (g : String) (style : Style) : Writer :=
  if isLineBreak g then w.newLine
  else match caretForm g with
    | some caret =>
      let c : Cell := ⟨caret, style.withAttribute .inverse⟩
      w.cell c c.width
    | none => w.cell ⟨g, style⟩ (clusterWidth g)

/-- Writes a text in one style. -/
def text (w : Writer) (s : String) (style : Style) : Writer :=
  (clusters s).foldl (fun w g => w.cluster g style) w

/-- Writes a styled text. -/
def styled (w : Writer) (t : StyledText) : Writer :=
  t.segments.foldl (fun w seg => w.text seg.text seg.style) w

/-- Writes blanks. -/
def blanks (w : Writer) (n : Nat) (style : Style) : Writer :=
  (List.replicate n ()).foldl (fun w _ => w.cluster " " style) w

/-- The frame that was written. -/
def finish (w : Writer) : Frame where
  width := w.width
  lines := (w.line.reverse :: w.above).reverse
  dot := w.dot

end Writer

end TerminalUI
