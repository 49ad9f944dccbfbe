import TerminalUI.Terminal.Basic
import TerminalUI.Terminal.Drawing
import TerminalUI.Terminal.Input

/-!
# Inline terminals

A terminal that draws inline, below what was on the screen before, and is told what to do by
commands. A frame equal to the one before is not drawn again, unless it has to be drawn in full.
-/

namespace TerminalUI

/-- The state of an inline terminal. -/
structure Inline where
  size : Size
  /-- What the terminal reports, still to be read. -/
  input : List Input := []
  /-- Events of an input that was read, still to be delivered. -/
  pending : List Event := []
  /-- The line of the last frame on which the cursor was left. -/
  line : Nat := 0
  /-- The commands given to the terminal so far. -/
  output : List Command := []
  deriving DecidableEq, Repr

namespace Inline

/-- Gives commands to the terminal. -/
def send (commands : List Command) : Device Inline Unit :=
  modify fun s => { s with output := s.output ++ commands }

/-- Shows a frame. -/
def draw (previous : Option Frame) (frame : Frame) (full : Bool) : Device Inline Unit := do
  if full || previous ≠ some frame then
    send (Drawing.draw (← get).line frame)
    modify fun s => { s with line := Drawing.cursorLine frame }

/-- The size once an input was read. -/
def sizeAfter (size : Size) : Input → Size
  | .resize rows columns => ⟨rows, columns⟩
  | _ => size

/-- The first event of the inputs, with the size once it was read, the rest of its input's events
and the inputs after it. -/
def firstEvent? (size : Size) : List Input → Option (Event × Size × List Event × List Input)
  | [] => none
  | input :: rest =>
    match input.events with
    | [] => firstEvent? (sizeAfter size input) rest
    | event :: pending => some (event, sizeAfter size input, pending, rest)

/-- Waits for the next event. -/
def next : Device Inline Event := do
  let s ← get
  match s.pending with
  | event :: pending =>
    set { s with pending }
    return event
  | [] =>
    match firstEvent? s.size s.input with
    | some (event, size, pending, input) =>
      set { s with size, pending, input }
      return event
    | none => throw (.terminal "end of input")

/-- The inline terminal. -/
def terminal : Terminal Inline where
  setup := send [.bracketedPaste true]
  restore := send [.bracketedPaste false, .cursor true]
  size := return (← get).size
  draw := draw
  readEvent := next

/-- Rounds of a run after which every event has been read, and one more was waited for. -/
def rounds (s : Inline) : Nat := s.pending.length + (s.input.flatMap Input.events).length + 1

end Inline

end TerminalUI
