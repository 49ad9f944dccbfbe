import TerminalUI.Terminal.Basic

/-!
# Scripted terminals

A terminal that plays a list of events and keeps every frame that it was given. Waiting for an event
past the end of the list is an error.
-/

namespace TerminalUI

/-- A frame that a scripted terminal was given. -/
structure Drawn where
  frame : Frame
  full : Bool
  previous : Option Frame
  deriving DecidableEq, Repr

/-- The state of a scripted terminal. -/
structure Script where
  /-- The events still to come. -/
  events : List Event
  size : Size
  /-- The frames, in the order in which they were shown. -/
  frames : List Drawn := []
  setups : Nat := 0
  restores : Nat := 0
  deriving DecidableEq, Repr

namespace Script

/-- Waits for the next event. A change of size counts once its event was read. -/
def next : Device Script Event := do
  let s ← get
  match s.events with
  | [] => throw (.terminal "event script exhausted")
  | event :: events =>
    let size := match event with
      | .resize rows columns => ⟨rows, columns⟩
      | _ => s.size
    set { s with events, size }
    return event

/-- The scripted terminal. -/
def terminal : Terminal Script where
  setup := modify fun s => { s with setups := s.setups + 1 }
  restore := modify fun s => { s with restores := s.restores + 1 }
  size := return (← get).size
  draw previous frame full :=
    modify fun s => { s with frames := s.frames ++ [⟨frame, full, previous⟩] }
  readEvent := next

/-- Rounds of a run after which every event has been read, and one more was waited for. -/
def rounds (s : Script) : Nat := s.events.length + 1

end Script

end TerminalUI
