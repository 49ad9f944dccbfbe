import TerminalUI.Hook.Editing
import TerminalUI.Widget.ListBox

/-!
# Hooks made of rules

A list of rules decides what happens at binding points. A rule applies when the tag, the key and the
sort of event are those that it asks for. The first rule that applies acts, and when there is none,
another hook does.
-/

namespace TerminalUI

/-- Sorts of events. -/
inductive EventSort where
  | key | paste | resize
  deriving DecidableEq, Repr

/-- The sort of an event. -/
def Event.sort : Event → EventSort
  | .key _ => .key
  | .paste _ => .paste
  | .resize .. => .resize

/-- What a rule does. -/
inductive RuleEffect where
  /-- Fails. -/
  | fail (e : Error)
  /-- Writes a value at a path below the level, and calls the handler. -/
  | write (path : Path) (value : Value)
  /-- Submits the selected item of the list at the level. -/
  | submit
  /-- Calls the handler twice. -/
  | twice
  /-- Answers with an action. -/
  | answer (action : Action)

/-- A rule for binding points. -/
structure Rule where
  tag : Option String := none
  key : Option Key := none
  sort : Option EventSort := none
  effect : RuleEffect

namespace Rule

/-- Does the rule apply to an event at a binding point? -/
def applies (r : Rule) (event : Event) (tag : String) : Bool :=
  r.tag.all (· = tag) && r.key.all event.isKey && r.sort.all (· = event.sort)

end Rule

namespace RuleEffect

/-- Submits the selected item of the list at a level; what cannot be read is an error. -/
def submitAt (level : Path) : UI (Except Error Action) := do
  let submitVar : Var Submit := ⟨level.child ListBox.submitName⟩
  match ← (ListBox.items level).tryGet.perform with
  | .error e => return .error e
  | .ok items =>
    match ← (ListBox.selected level).tryGet.perform with
    | .error e => return .error e
    | .ok selected =>
      match ← submitVar.tryGet.perform with
      | .error e => return .error e
      | .ok callback =>
        callback.call items selected
        return .ok .consumed

/-- Acts at a binding point. -/
def act (effect : RuleEffect) : Hook := fun event level _ handler => do
  match effect with
  | .fail e => return .error e
  | .write path value =>
    match (← UI.tree).update (level ++ path) value with
    | .error e => return .error e
    | .ok t =>
      UI.setTree t
      return .ok (← handler event)
  | .submit => submitAt level
  | .twice =>
    let _ ← handler event
    return .ok (← handler event)
  | .answer action => return .ok action

end RuleEffect

namespace Hook

/-- Acts by the first rule that applies, and by another hook if none does. -/
def ofRules (rules : List Rule) (otherwise : Hook) : Hook := fun event level tag handler =>
  match rules.find? (·.applies event tag) with
  | some r => r.effect.act event level tag handler
  | none => otherwise event level tag handler

end Hook

end TerminalUI
