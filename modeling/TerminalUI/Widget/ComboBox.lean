import TerminalUI.Widget.CodeArea
import TerminalUI.Widget.ListBox

/-!
# Combo box

A code area whose content filters the list below it. The list is made by a generator, on first use
and whenever an event that the filter dealt with has changed the content. Events that the filter has
no use for go to the list.
-/

namespace TerminalUI

namespace ComboBox

/-- The generator of the list. -/
def generatorName : Name := ⟨"gen-list", by decide⟩
/-- The content that the list was made for. -/
def lastFilterName : Name := ⟨"-last-filter-content", by decide⟩
/-- The code area. -/
def filterName : Name := ⟨"filter", by decide⟩

/-- The tag of the handler. -/
def tag : String := "combobox"

/-- The variables of a combo box at a level. -/
structure Vars where
  generator : Var Generator
  buffer : Var CodeBuffer
  items : Var (Option Items)
  selected : Var Nat
  lastFilter : Var String

/-- The variables of the combo box at a level. -/
def Vars.at (level : Path) : Vars where
  generator := ⟨level.child generatorName⟩
  buffer := CodeArea.buffer (level.child filterName)
  items := ListBox.items (level.child listName)
  selected := ListBox.selected (level.child listName)
  lastFilter := ⟨level.child lastFilterName⟩

/-- Makes the list for a content. -/
def regenerate (v : Vars) (content : String) : Program Unit := do
  let (items, selected) := (← v.generator.get).generate content
  v.items.set items
  v.selected.set selected
  v.lastFilter.set content

/-- Gives events to the filter, and to the list those that the filter has no use for. -/
def handler (v : Vars) (filter list : Handler) : Handler := fun event => do
  let action ← filter event
  if action = .unused then list event
  else
    let content := (← v.buffer.get).content
    if content ≠ (← v.lastFilter.get) then regenerate v content
    return action

end ComboBox

/-- A list with a filter. -/
def comboBox (interpret : Blueprint → Component) : Component := fun level => do
  let _ ← stateAt level ComboBox.generatorName Generator.nothing
  let v := ComboBox.Vars.at level
  if (← v.lastFilter.value?).isNone then
    let content ← match ← v.buffer.tryGet with
      | .ok b => pure b.content
      | .error _ => pure ""
    ComboBox.regenerate v content
  let filter ← Component.subcomponent interpret level ComboBox.filterName .codeArea
  let list ← Component.subcomponent interpret level listName .listBox
  return {
    view := .rows [filter.view, list.view] 0
    handler := withBinding level ComboBox.tag
      (ComboBox.handler v filter.handler list.handler) }

end TerminalUI
