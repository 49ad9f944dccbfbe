import TerminalUI.Frame.Basic
import TerminalUI.Terminal.Command

/-!
# Drawing frames inline

A frame is drawn from the line on which the first frame was started, in the place of the one before:
the cursor goes up to that line, what is below is cleared, the lines are printed, and the cursor goes
to the dot. All that has to be known of the frame before is on which of its lines it left the cursor.
The style of a cell is sent only where it differs from that of the cell before.
-/

namespace TerminalUI

namespace Drawing

/-- The largest distance that a cursor command can have. -/
def farthest : Nat := 65535

/-- Moves the cursor up, if at all. -/
def moveUp (lines : Nat) : List Command :=
  if lines = 0 then [] else [.up (min lines farthest)]

/-- Sets a style, whatever was set before. -/
def setStyle (s : Style) : List Command :=
  [.reset, .foreground s.foreground, .background s.background] ++ s.attributes.toList.map .turnOn

/-- Prints a cell where a style is set already, if any is. -/
def drawCell (current : Option Style) (c : Cell) : List Command :=
  (if current = some c.style then [] else setStyle c.style) ++ [.print c.text]

/-- Prints the cells of a line. -/
def drawLine (current : Option Style) : List Cell → List Command
  | [] => []
  | c :: cells => drawCell current c ++ drawLine (some c.style) cells

/-- The style that is set after the cells of a line. -/
def styleAfter (current : Option Style) (line : List Cell) : Option Style :=
  line.foldl (fun _ c => some c.style) current

/-- Prints lines, with a line break between them. -/
def drawLines (current : Option Style) : List (List Cell) → List Command
  | [] => []
  | [line] => drawLine current line
  | line :: next :: lines =>
    drawLine current line ++ .lineBreak :: drawLines (styleAfter current line) (next :: lines)

/-- The line of a frame on which the cursor is left: that of the dot, or the last one. -/
def cursorLine (f : Frame) : Nat := min f.dot.line (f.lines.length - 1)

/-- Draws a frame, where the cursor is on line number `line` of the frame before. -/
def draw (line : Nat) (f : Frame) : List Command :=
  .cursor false :: moveUp line ++ [.column 0, .clearBelow] ++ drawLines none f.lines ++ [.reset] ++
    moveUp (f.lines.length - 1 - cursorLine f) ++
    [.column (min f.dot.column farthest), .cursor true]

end Drawing

end TerminalUI
