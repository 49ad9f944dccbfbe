import TerminalUI.Component

/-!
# Button

A labelled button, pressed with Space or Enter. What a press does is kept in the state tree.
-/

namespace TerminalUI

/-- The text that describes the booking held below a path: the trip type and the dates as they are
now. What cannot be read counts as a one-way trip and as empty dates. -/
def bookingText (form : Path) : Program String := do
  let date (name : String) : Program String := do
    let b : Var CodeBuffer := ⟨form.join [name, "buffer"]⟩
    return (← b.getD {}).content
  let selected : Var Nat := ⟨form.join ["type", "selected"]⟩
  if (← selected.getD 0) = 0 then return "booked one-way on " ++ (← date "outbound")
  else return "booked " ++ (← date "outbound") ++ " returning " ++ (← date "inbound")

/-- Does what a press does. -/
def Press.run : Press → Program Action
  | .change none _ action => return action
  | .change (some target) amount action => do
    let v : Var Int := ⟨target⟩
    v.modify (· + amount)
    return action
  | .book form status => do
    let v : Var String := ⟨status⟩
    v.set (← bookingText form)
    return .consumed

namespace Button

/-- The text on the button. -/
def labelName : Name := ⟨"label", by decide⟩
/-- What a press does. -/
def pressName : Name := ⟨"on-press", by decide⟩

/-- The tag of the handler. -/
def tag : String := "button"

/-- Presses the button. -/
def handler (press : Var Press) : Handler := fun event => do
  if event.isBare (.char ' ') || event.isBare .enter then (← press.get).run
  else return .unused

/-- The blueprint of a button with a label. -/
def labelled (label : String) (press : Press) : Blueprint :=
  .withStates [(labelName, .string label), (pressName, .press press)] .button

end Button

/-- A button. -/
def button : Component := fun level => do
  let label ← stateAt level Button.labelName "button"
  let press ← stateAt level Button.pressName Press.nothing
  let text := StyledText.plain ("[ " ++ (← label.get) ++ " ]")
  return {
    view := .styled (text.withAttribute .inverse)
    handler := withBinding level Button.tag (Button.handler press) }

end TerminalUI
