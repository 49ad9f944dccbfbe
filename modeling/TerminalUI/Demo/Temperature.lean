import TerminalUI.Decimal.Places
import TerminalUI.Decimal.Reading
import TerminalUI.Demo.Field

/-!
# Temperature converter

Two fields, one for degrees Celsius and one for degrees Fahrenheit. When an edit of one of them has
been dealt with and it holds a number, the other one shows the converted number. Tab moves the focus
to the other field.
-/

namespace TerminalUI

namespace Temperature

/-- The field for degrees Celsius. -/
def celsiusName : Name := ⟨"celsius", by decide⟩
/-- The field for degrees Fahrenheit. -/
def fahrenheitName : Name := ⟨"fahrenheit", by decide⟩

/-- Degrees Celsius in Fahrenheit. -/
def toFahrenheit (c : Float) : Float := c * 9.0 / 5.0 + 32.0

/-- Degrees Fahrenheit in Celsius. -/
def toCelsius (f : Float) : Float := (f - 32.0) * 5.0 / 9.0

/-- The converted number, if the text holds one. -/
def convert? (formula : Float → Float) (text : String) : Option String :=
  (Decimal.read? text).map fun x => Decimal.twoPlaces (formula x)

/-- Shows the number of one field converted in the other one. -/
def sync (source target : Var CodeBuffer) (formula : Float → Float) : Program Unit := do
  match convert? formula (← source.get).content with
  | some s => target.set (.atEnd s)
  | none => return ()

/-- The variables of a converter. -/
structure Vars where
  celsius : Var CodeBuffer
  fahrenheit : Var CodeBuffer
  focus : Var Nat

/-- Gives events to the focused field. -/
def handler (v : Vars) (celsius fahrenheit : Handler) : Handler := fun event => do
  let current ← v.focus.get
  if event.isBare .tab then
    if current > 1 then .fault .outOfRange
    else
      v.focus.set (1 - current)
      return .consumed
  else if current = 0 then
    let action ← celsius event
    if action = .consumed then sync v.celsius v.fahrenheit toFahrenheit
    return action
  else
    let action ← fahrenheit event
    if action = .consumed then sync v.fahrenheit v.celsius toCelsius
    return action

end Temperature

/-- A converter between two scales of temperature. -/
def temperature (interpret : Blueprint → Component) : Component := fun level => do
  let field := Component.subcomponent interpret level
  let celsius ← field Temperature.celsiusName (.field "Celsius: ")
  let fahrenheit ← field Temperature.fahrenheitName (.field "Fahrenheit: ")
  let focus ← stateAt level focusName (0 : Nat)
  let v : Temperature.Vars := {
    celsius := CodeArea.buffer (level.child Temperature.celsiusName)
    fahrenheit := CodeArea.buffer (level.child Temperature.fahrenheitName)
    focus := focus }
  return {
    view := .rows [celsius.view, fahrenheit.view] (← focus.get)
    handler := Temperature.handler v celsius.handler fahrenheit.handler }

end TerminalUI
