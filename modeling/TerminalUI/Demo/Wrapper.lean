import TerminalUI.Component
import TerminalUI.State.Listing
import TerminalUI.Text.Pieces

/-!
# Wrapper

Shows the component inside it with a listing of its state below. Esc ends the application when the
inner component has no use for it.
-/

namespace TerminalUI

mutual

/-- The lines that list a value under its name. -/
def Value.describeUnder (name : String) : Value → List String
  | .map t => (name ++ ":") :: (lines (Tree.describe t)).map ("  " ++ ·)
  | v => [name ++ " = " ++ v.listing]

/-- The lines that list the entries of a tree, the kept component aside. -/
def Tree.describeEntries : Tree → List String
  | .ofEntries es => es.describe

/-- The lines that list some entries, the kept component aside. -/
def Entries.describe {bound : Option String} : Entries bound → List String
  | .nil => []
  | .cons name _ value rest =>
    (if name = componentName then [] else value.describeUnder name) ++ rest.describe

/-- A listing of a tree: a line for each entry, with those of a map indented below its name. -/
def Tree.describe (t : Tree) : String := "\n".intercalate t.describeEntries

end

namespace Wrapper

/-- The name of the inner component. -/
def innerName : Name := ⟨"inner", by decide⟩

/-- Ends the application. -/
def ends (e : Event) : Bool := e.isBare .escape || e.isKey (.control '[')

/-- Gives events to the inner component. -/
def handler (inner : Handler) : Handler := fun event => do
  let action ← inner event
  if action = .unused && ends event then return .exit else return action

end Wrapper

/-- Shows the state of the component inside it. -/
def wrapper (interpret : Blueprint → Component) : Component := fun level => do
  let inner ← Component.subcomponent interpret level Wrapper.innerName .blank
  let state : Var Tree := ⟨level.child Wrapper.innerName⟩
  let t ← state.getD .empty
  return {
    view := .rows [inner.view, .plain t.describe] 0
    handler := Wrapper.handler inner.handler }

/-- The wrapper with a component inside it. -/
def Blueprint.wrap (inner : Blueprint) : Blueprint :=
  .withStates [(Wrapper.innerName ++ "/" ++ componentName, .component inner)] .wrapper

end TerminalUI
