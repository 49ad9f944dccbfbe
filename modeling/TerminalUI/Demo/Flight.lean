import TerminalUI.Demo.Button
import TerminalUI.Demo.Field
import TerminalUI.Widget.ListBox

/-!
# Flight booker

A trip type, two dates and a button that books. Down and Tab move to the next part, Up and Shift-Tab
to the previous one, when the focused part has no use for them.
-/

namespace TerminalUI

namespace Flight

/-- The text that tells what was booked. -/
def statusName : Name := ⟨"status", by decide⟩
/-- The list of trip types. -/
def typeName : Name := ⟨"type", by decide⟩
/-- The date of the way out. -/
def outboundName : Name := ⟨"outbound", by decide⟩
/-- The date of the way back. -/
def inboundName : Name := ⟨"inbound", by decide⟩
/-- The button. -/
def bookName : Name := ⟨"book", by decide⟩

/-- Moves on to the next part of the form. -/
def isForward (e : Event) : Bool := e.isBare .down || e.isBare .tab

/-- Moves back to the previous part. -/
def isBackward (e : Event) : Bool :=
  e.isBare .up || e.isBare .backTab || e.isKey { modifiers := .onlyShift, code := .tab }

/-- Gives events to the focused part, and moves the focus with those that it has no use for. -/
def handler (focus : Var Nat) (current : Nat) (parts : List Handler) : Handler := fun event => do
  match parts[current]? with
  | none => .fault .outOfRange
  | some part =>
    let action ← part event
    if action ≠ .unused then return action
    else if isForward event && current + 1 < parts.length then
      focus.set (current + 1)
      return .consumed
    else if isBackward event && current > 0 then
      focus.set (current - 1)
      return .consumed
    else return action

/-- The choice between the trip types. -/
def tripType : Blueprint :=
  .withStates [(ListBox.itemsName, .items (some (.ofStrings ["one-way", "return"])))] .listBox

end Flight

/-- A form that books a flight. -/
def flight (interpret : Blueprint → Component) : Component := fun level => do
  let status ← stateAt level Flight.statusName ""
  let part := Component.subcomponent interpret level
  let type ← part Flight.typeName Flight.tripType
  let outbound ← part Flight.outboundName (.field "outbound: ")
  let inbound ← part Flight.inboundName (.field "inbound:  ")
  let book ← part Flight.bookName (Button.labelled "Book" (.book level status.path))
  let focus ← stateAt level focusName (0 : Nat)
  let current ← focus.get
  let parts := [type, outbound, inbound, book]
  return {
    view := .rows (parts.map Scene.view ++ [.plain (← status.get)]) current
    handler := Flight.handler focus current (parts.map Scene.handler) }

end TerminalUI
