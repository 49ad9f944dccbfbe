import TerminalUI.Widget.ListBox

/-!
# Setup wizard

A list of tasks, with the description of the selected one beside it and its command below.
-/

namespace TerminalUI

namespace Wizard

/-- A task of the wizard. -/
structure Task where
  name : String
  description : String
  command : String

/-- The first task. -/
def carapace : Task where
  name := "Set up carapace"
  description := "Carapace provides a lot of completions."
  command := "sudo brew install carapace"

/-- The second task. -/
def readline : Task where
  name := "Use readline binding"
  description := "Keybindings like:\nCtrl-N to next line\nCtrl-P to previous line\n" ++
    "Ctrl-F to next character\nCtrl-B to previous character"
  command := "use readline-binding"

/-- The task at an index; past the end, the last one. -/
def taskAt (i : Nat) : Task := if i = 0 then carapace else readline

/-- The tasks as items of a list. -/
def items : Items where
  shown := [.plain carapace.name, .plain readline.name]
  listing := "Tasks"

/-- Takes Enter and gives all else to the list. -/
def handler (list : Handler) : Handler := fun event =>
  if event.isBare .enter then return .consumed else list event

end Wizard

/-- A list of tasks with their details. -/
def wizard (interpret : Blueprint → Component) : Component := fun level => do
  let list ← Component.subcomponent interpret level listName
    (.withStates [(ListBox.itemsName, .items (some Wizard.items))] .listBox)
  let task := Wizard.taskAt (← (ListBox.selected (level.child listName)).get)
  return {
    view := .rows [.columns [list.view, .plain task.description] 0, .plain ("\n" ++ task.command)] 0
    handler := Wizard.handler list.handler }

end TerminalUI
