import TerminalUI.Frame.Writer
import TerminalUI.Word

/-!
# Layout of a code area

A code area shows a prompt, the code with the dot in it, a right prompt at the end of the last line
when there is room, and tips on lines of their own. When that is taller than the frame may be, a
window of lines around the dot is kept.

`CodeLayout.render` is the frame. `CodeLayout.draw` computes the room for the right prompt with
machine words, and gives the same frame unless that overflows.
-/

namespace TerminalUI

/-- What a code area shows. -/
structure CodeLayout where
  prompt : StyledText := {}
  /-- Shown at the right end of the last line of code. -/
  rightPrompt : StyledText := {}
  code : StyledText := {}
  /-- Byte offset of the dot in the code. -/
  dot : Nat := 0
  tips : List StyledText := []
  deriving DecidableEq, Repr

namespace CodeLayout

/-- Code that is being written: whether the dot was set, and the bytes written. -/
structure Progress where
  writer : Writer
  dotSet : Bool := false
  offset : Nat := 0
  deriving Repr

/-- Writes a cluster of the code, and before it sets the dot if this is the first cluster that
starts at or after the dot. -/
def Progress.cluster (dot : Nat) (style : Style) (p : Progress) (g : String) : Progress :=
  let here := !p.dotSet && decide (dot ≤ p.offset)
  let writer := if here then p.writer.setDot else p.writer
  { writer := writer.cluster g style, dotSet := p.dotSet || here,
    offset := p.offset + byteLength g }

/-- Writes a run of the code. -/
def Progress.segment (dot : Nat) (p : Progress) (seg : Segment) : Progress :=
  (clusters seg.text).foldl (Progress.cluster dot seg.style) p

/-- Writes the prompt and the code, with the dot at its place or after the code. -/
def writeCode (v : CodeLayout) (width : Nat) : Writer :=
  let p := v.code.segments.foldl (Progress.segment v.dot)
    { writer := (Writer.ofWidth width).styled v.prompt }
  if p.dotSet then p.writer else p.writer.setDot

/-- Writes the right prompt behind as many blanks as there is room for, if that is at least one. -/
def writeRightAligned (v : CodeLayout) (room : Int) (w : Writer) : Writer :=
  if room ≥ 1 then (w.blanks room.toNat {}).styled v.rightPrompt else w

/-- Writes the right prompt, if at least one blank fits before it. -/
def writeRightPrompt (v : CodeLayout) (width : Nat) (w : Writer) : Writer :=
  if v.rightPrompt.isEmpty then w
  else v.writeRightAligned (signedWord width - w.column - v.rightPrompt.width) w

/-- The frame of what was written, with the tips below. -/
def finish (v : CodeLayout) (w : Writer) : Frame :=
  (v.tips.foldl (fun w tip => w.newLine.styled tip) w).finish

/-- The frame before it is cut to a height. -/
def fullFrame (v : CodeLayout) (width : Nat) : Frame :=
  v.finish (v.writeRightPrompt width (v.writeCode width))

/-- Cuts a frame to a height: its first lines if the dot is on one of them, or else the lines that
end with that of the dot. -/
def window (f : Frame) (height : Nat) : Frame :=
  if f.lines.length ≤ height then f
  else if f.dot.line < height then f.trim 0 height
  else f.trim (f.dot.line + 1 - height) (f.dot.line + 1)

/-- The frame of a code area. -/
def render (v : CodeLayout) (width height : Nat) : Frame := window (v.fullFrame width) height

/-- Writes the right prompt, if at least one blank fits before it, on a machine of words. -/
def drawRightPrompt (v : CodeLayout) (width : Nat) (w : Writer) : Except Fault Writer := do
  if v.rightPrompt.isEmpty then return w
  else
    let room ← signedSubAll (signedWord width) [w.column, v.rightPrompt.width]
    return v.writeRightAligned room w

/-- Draws a code area, on a machine of words. -/
def draw (v : CodeLayout) (width height : Nat) : Except Fault Frame := do
  let w ← v.drawRightPrompt width (v.writeCode width)
  return window (v.finish w) height

end CodeLayout

end TerminalUI
