import TerminalUI.Terminal.Basic

/-!
# Failing terminals

A terminal one of whose operations works a number of times and fails from then on. It fails before
it does anything, except that giving the terminal back fails after it was done.
-/

namespace TerminalUI

namespace Terminal

variable {σ α : Type}

/-- A step with the terminal's own state. -/
def inner (step : Device σ α) : Device (σ × Nat) α := fun (s, left) =>
  match step.run s with
  | (r, s) => (r, (s, left))

/-- Uses up one of the calls that work, or fails if there is none left. -/
def useUp (error : Error) : Device (σ × Nat) Unit := fun (s, left) =>
  match left with
  | 0 => (.error error, (s, 0))
  | n + 1 => (.ok (), (s, n))

/-- The terminal whose operation `op` fails with an error after a number of calls, which the state
keeps. -/
def failing (t : Terminal σ) (op : Operation) (error : Error) : Terminal (σ × Nat) where
  setup := guarded .setup t.setup
  restore := do
    inner t.restore
    if op = .restore then useUp error
  size := guarded .size t.size
  draw previous frame full := guarded .draw (t.draw previous frame full)
  readEvent := guarded .readEvent t.readEvent
where
  /-- A step that fails when it is the failing operation and no call is left. -/
  guarded {β : Type} (this : Operation) (step : Device σ β) : Device (σ × Nat) β := do
    if this = op then useUp error
    inner step

end Terminal

end TerminalUI
