import TerminalUI.Demo.Button

/-!
# Counter

Counts the presses of a button.
-/

namespace TerminalUI

namespace Counter

/-- The number. -/
def valueName : Name := ⟨"value", by decide⟩
/-- The button. -/
def buttonName : Name := ⟨"button", by decide⟩

end Counter

/-- A number with a button that counts it up. -/
def counter (interpret : Blueprint → Component) : Component := fun level => do
  let value ← stateAt level Counter.valueName (0 : Int)
  let press : Press := .change (some value.path) 1 .consumed
  let scene ← Component.subcomponent interpret level Counter.buttonName
    (Button.labelled "Count" press)
  return {
    view := .flexible [.plain (toString (← value.get)), scene.view] 1 1
    handler := scene.handler }

end TerminalUI
