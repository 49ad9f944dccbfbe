import TerminalUI.Frame.Basic
import TerminalUI.Error
import TerminalUI.Text.Offset
import TerminalUI.Text.Parts

/-!
# Dumps of frames

A dump shows a frame as text: each line in a box, and below it a row of markers, one to a column,
that tell the styles of the cells apart. A caret marks the dot. `Frame.dump` is that text, and
`Frame.print` makes it out of texts that are repeated and filled up, which has its limits.
`Frame.expect` asserts what the lines of a frame hold.
-/

namespace TerminalUI

/-- The marker of a style. -/
def Style.marker (s : Style) : Char :=
  if s = {} then ' '
  else if s.attributes.inverse then '#'
  else if s.attributes.bold then '*'
  else if s.attributes.underline then '_'
  else if s.foreground.any Color.isRed then 'R'
  else if s.foreground.any Color.isGreen then 'G'
  else '?'

namespace Frame

/-- The texts of all lines. -/
def lineTexts (f : Frame) : List String := f.lines.map fun l => String.join (l.map Cell.text)

/-- The markers of a row of cells: the marker of each cell in every column that it fills, and once
if it fills none. -/
def markers (line : List Cell) : List Char :=
  line.flatMap fun c => List.replicate (max 1 c.width) c.style.marker

/-- The markers of a line; none past the last one. -/
def styleLine (f : Frame) (i : Nat) : String := String.ofList (markers (f.lines.getD i []))

/-- Does some line hold this text? -/
def containsText (f : Frame) (piece : String) : Bool :=
  f.lineTexts.any (occursIn piece)

/-- A row with a caret in the given column, filled up to it when it ends before. -/
def withCaret (row : List Char) (column : Nat) : List Char :=
  (row ++ List.replicate (column + 1 - row.length) ' ').set column '^'

/-- Columns between the borders of a dump. -/
def dumpWidth (f : Frame) : Nat := max (max f.width f.contentWidth) (f.dot.column + 1)

/-- The markers of line number `i`, with a caret in the column of the dot if the dot is on it. -/
def markerRow (f : Frame) (i : Nat) (line : List Cell) : List Char :=
  if i = f.dot.line then withCaret (markers line) f.dot.column else markers line

/-- The two rows of a dump for line number `i`: its text and its markers. -/
def dumpRows (f : Frame) (width i : Nat) (line : List Cell) : String :=
  let text := String.join (line.map Cell.text)
  let row := f.markerRow i line
  let fill (n : Nat) := String.ofList (List.replicate n ' ')
  "│" ++ text ++ fill (width - lineWidth line) ++ "│\n" ++
    "│" ++ String.ofList row ++ fill (width - row.length) ++ "│\n"

/-- The line above the box. -/
def title (f : Frame) : String :=
  "Width = " ++ toString f.width ++ ", Dot = (" ++ toString f.dot.line ++ ", " ++
    toString f.dot.column ++ ")"

/-- A border of the box, between two corners. -/
def border (width : Nat) (left right : String) : String :=
  left ++ String.join (List.replicate width "─") ++ right

/-- The frame as text. -/
def dump (f : Frame) : String :=
  f.title ++ "\n" ++ border f.dumpWidth "┌" "┐" ++ "\n" ++
    String.join ((List.range f.height).zipWith (f.dumpRows f.dumpWidth) f.lines) ++
    border f.dumpWidth "└" "┘" ++ "\n"

/-- The most columns that a text can be filled up to. -/
def widest : Nat := 0xFFFF

/-- The most bytes that a text can have. -/
def longest : Nat := 0x7FFFFFFFFFFFFFFF

/-- Can a text be repeated so often? -/
def checkRepeat (s : String) (n : Nat) : Except Fault Unit :=
  if n * byteLength s > longest then .error .tooWide else .ok ()

/-- Can a text be filled up to so many columns? -/
def checkFill (width : Nat) : Except Fault Unit :=
  if width > widest then .error .tooWide else .ok ()

/-- Prints the frame as text. The borders are a text that is repeated, and the markers of each line
are filled up. -/
def print (f : Frame) : Except Fault String := do
  checkRepeat "─" f.dumpWidth
  forM f.lines fun _ => checkFill f.dumpWidth
  return f.dump

/-- A text without the blanks at its end. -/
def withoutTrailingBlanks (s : String) : List Char :=
  (s.toList.reverse.dropWhile isBlank).reverse

/-- Do the lines hold these texts, blanks at their ends aside? -/
def matchesLines (f : Frame) (expected : List String) : Bool :=
  f.lineTexts.map withoutTrailingBlanks == expected.map withoutTrailingBlanks

/-- Asserts that the lines hold these texts, blanks at their ends aside. If they do not, the frame
is printed first. -/
def expect (f : Frame) (expected : List String) : Except Fault Unit := do
  if f.matchesLines expected then return ()
  else
    let _ ← f.print
    .error .mismatch

end Frame

end TerminalUI
