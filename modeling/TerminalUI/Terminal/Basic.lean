import TerminalUI.Error
import TerminalUI.Frame.Basic
import TerminalUI.Key.Basic

/-!
# Terminals

What an application needs of a terminal: to take it over and to give it back, its size, to show a
frame, and to wait for an event. Each of these may fail, and may change the terminal's own state
also when it fails.
-/

namespace TerminalUI

/-- The size of a terminal. -/
structure Size where
  rows : Nat
  columns : Nat
  deriving DecidableEq, Repr

/-- A step of a terminal with states `σ`, which may fail. -/
abbrev Device (σ : Type) := ExceptT Error (StateM σ)

/-- A terminal with states `σ`. -/
structure Terminal (σ : Type) where
  /-- Takes the terminal over. -/
  setup : Device σ Unit
  /-- Gives the terminal back. -/
  restore : Device σ Unit
  /-- The current size. -/
  size : Device σ Size
  /-- Shows a frame, given the one shown before, and whether all of it has to be drawn. -/
  draw : Option Frame → Frame → Bool → Device σ Unit
  /-- Waits for the next event. -/
  readEvent : Device σ Event

/-- The operations of a terminal. -/
inductive Operation where
  | setup | restore | size | draw | readEvent
  deriving DecidableEq, Repr

end TerminalUI
