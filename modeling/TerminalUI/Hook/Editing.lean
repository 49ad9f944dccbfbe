import TerminalUI.Code.Movement
import TerminalUI.Hook.Basic
import TerminalUI.Widget.CodeArea

/-!
# Editing keys of code areas

A code area has no use for the keys that move the dot. `Hook.movement` gives them their meaning:
Left, Right, Home and End, when the code area has not used them. `Hook.submission` is the same and
ends the application on Enter and Esc, unless a paste is in progress.
-/

namespace TerminalUI

/-- The movement that a key stands for. -/
def Movement.ofKey? (k : Key) : Option Movement :=
  if k.isBare .left then some .left
  else if k.isBare .right then some .right
  else if k.isBare .home then some .lineStart
  else if k.isBare .end then some .lineEnd
  else none

namespace Hook

/-- Moves the dot of the code area at a level. -/
def move (m : Movement) (level : Path) : UI (Except Error Action) := do
  let buffer := CodeArea.buffer level
  match ← buffer.tryGet.perform with
  | .error e => return .error e
  | .ok b =>
    let moved ← (Program.ofExcept (m.apply b)).perform
    (buffer.set moved).perform
    return .ok .consumed

/-- Moves the dot of code areas. -/
def movement : Hook := fun event level tag handler => do
  let action ← handler event
  if tag ≠ CodeArea.tag || action ≠ .unused then return .ok action
  else match event.key?.bind Movement.ofKey? with
    | some m => move m level
    | none => return .ok .unused

/-- Does the key submit what was edited? -/
def submits (k : Key) : Bool := k.isBare .enter || k.isBare .escape || k = .control '['

/-- Moves the dot of code areas, and ends the application on a key that submits. -/
def submission : Hook := fun event level tag handler => do
  if event.key?.any submits && tag = CodeArea.tag then
    if ← ((CodeArea.pasting level).getD false).perform then movement event level tag handler
    else return .ok .exit
  else movement event level tag handler

end Hook

end TerminalUI
