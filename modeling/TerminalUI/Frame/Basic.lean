import TerminalUI.Style.Basic
import TerminalUI.Text.Width

/-!
# Frames

A frame is what a view draws: lines of styled cells and a dot, where the terminal's cursor goes.
Lines may be shorter or longer than the width that the frame was drawn for. Frames are put below
and beside each other (`Frame.below`, `Frame.beside`) and cut to a range of lines (`Frame.trim`).
-/

namespace TerminalUI

/-- One cluster of text in one style. -/
structure Cell where
  text : String := ""
  style : Style := {}
  deriving DecidableEq, Repr

/-- Columns that a cell fills. -/
def Cell.width (c : Cell) : Nat := displayWidth c.text

/-- A blank cell in the default style. -/
def Cell.blank : Cell := ⟨" ", {}⟩

/-- A position in a frame. -/
structure Position where
  line : Nat := 0
  column : Nat := 0
  deriving DecidableEq, Repr

/-- Lines of cells, with the width that they were drawn for and the dot. -/
structure Frame where
  width : Nat
  lines : List (List Cell)
  dot : Position := {}
  deriving DecidableEq, Repr

namespace Frame

/-- A frame with a single empty line. -/
def empty (width : Nat) : Frame := { width, lines := [[]] }

instance : Inhabited Frame := ⟨empty 0⟩

/-- Columns that a line fills. -/
def lineWidth (line : List Cell) : Nat := total Cell.width line

/-- Number of lines. -/
def height (f : Frame) : Nat := f.lines.length

/-- Columns that the longest line fills. -/
def contentWidth (f : Frame) : Nat := (f.lines.map lineWidth).foldl max 0

/-- The text of a line; empty past the last one. -/
def lineText (f : Frame) (i : Nat) : String :=
  String.join ((f.lines.getD i []).map Cell.text)

/-- A row of blank cells. -/
def blanks (n : Nat) : List Cell := List.replicate n .blank

/-- The frame with the lines of `lower` below its own. The dot stays, or moves to that of
`lower`. -/
def below (upper lower : Frame) (moveDot : Bool) : Frame where
  width := upper.width
  lines := upper.lines ++ lower.lines
  dot := if moveDot then ⟨upper.lines.length + lower.dot.line, lower.dot.column⟩ else upper.dot

/-- The lines of two frames side by side: a line on the left that has a right neighbour is filled
up to the width, and where the left frame has ended that many blanks take its place. -/
def joinLines (width : Nat) : List (List Cell) → List (List Cell) → List (List Cell)
  | left, [] => left
  | [], right => right.map (blanks width ++ ·)
  | l :: left, r :: right =>
    (l ++ blanks (width - lineWidth l) ++ r) :: joinLines width left right

/-- The frame with the lines of `right` beside its own, from the column of its width on. -/
def beside (left right : Frame) : Frame where
  width := left.width + right.width
  lines := joinLines left.width left.lines right.lines
  dot := left.dot

/-- The lines from `low` up to `high`, which are brought into range. The dot moves along and stays
on a line of the frame. -/
def trim (f : Frame) (low high : Nat) : Frame :=
  let high := min high f.lines.length
  let low := min low high
  let lines := (f.lines.take high).drop low
  { f with lines, dot := { f.dot with line := min (f.dot.line - low) (lines.length - 1) } }

end Frame

end TerminalUI
