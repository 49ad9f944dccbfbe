import TerminalUI.Demo.Field
import TerminalUI.State.Listing
import TerminalUI.Widget.ListBox

/-!
# To-do list

A list of entries and a field for new ones. Enter in the field adds its content as an entry, and
Space in the list marks the selected entry as done or not done. Tab moves the focus to the other
part, and so do Up at the field and Down at the end of the list.
-/

namespace TerminalUI

namespace TodoList

/-- The entries. -/
def todosName : Name := ⟨"todos", by decide⟩
/-- The field for a new entry. -/
def newItemName : Name := ⟨"new-item", by decide⟩

/-- How an entry is shown. -/
def shown (t : Todo) : StyledText :=
  .plain ("[" ++ (if t.done then "X" else " ") ++ "] " ++ t.text)

/-- Entries as items of a list. -/
def items (l : List Todo) : Items where
  shown := l.map shown
  listing := Listing.call "TodoItems" [Listing.items (l.map Todo.listing)]

/-- The list with the mark of one entry flipped, if there is one at the index. -/
def toggle (i : Nat) (l : List Todo) : List Todo := l.modify i fun t => { t with done := !t.done }

/-- The variables of a to-do list. -/
structure Vars where
  todos : Var (List Todo)
  items : Var (Option Items)
  selected : Var Nat
  entry : Var CodeBuffer
  focus : Var Nat

/-- Changes the entries, and the items that show them. -/
def update (v : Vars) (f : List Todo → List Todo) : Program Unit := do
  let all := f (← v.todos.get)
  v.items.set (some (items all))
  v.todos.set all

/-- Deals with a key while the list has the focus. -/
def listKey (v : Vars) (list : Handler) (event : Event) : Program Action := do
  let action ← list event
  if action ≠ .unused then return action
  else if event.isBare .down then
    v.focus.set 1
    return .consumed
  else if event.isBare (.char ' ') then
    let i ← v.selected.get
    update v (toggle i)
    return .consumed
  else return .unused

/-- Deals with a key while the field has the focus. -/
def entryKey (v : Vars) (entry : Handler) (event : Event) : Program Action := do
  if event.isBare .enter then
    let text := (← v.entry.get).content
    update v (· ++ [⟨text, false⟩])
    v.entry.set {}
    return .consumed
  else
    let action ← entry event
    if action = .unused && event.isBare .up then
      v.focus.set 0
      return .consumed
    else return action

/-- Gives keys to the focused part. Other events are not used. -/
def handler (v : Vars) (current : Nat) (list entry : Handler) : Handler := fun event => do
  if event.key?.isNone then return .unused
  else if event.isBare .tab then
    if current > 1 then .fault .outOfRange
    else
      v.focus.set (1 - current)
      return .consumed
  else if current = 0 then listKey v list event
  else entryKey v entry event

end TodoList

/-- A to-do list. -/
def todoList (interpret : Blueprint → Component) : Component := fun level => do
  let todos ← stateAt level TodoList.todosName ([] : List Todo)
  let list ← Component.subcomponent interpret level listName .listBox
  let entry ← Component.subcomponent interpret level TodoList.newItemName (.field "new item: ")
  let focus ← stateAt level focusName (1 : Nat)
  let current ← focus.get
  let v : TodoList.Vars := {
    todos := todos
    items := ListBox.items (level.child listName)
    selected := ListBox.selected (level.child listName)
    entry := CodeArea.buffer (level.child TodoList.newItemName)
    focus := focus }
  return {
    view := .rows [list.view, entry.view] current
    handler := TodoList.handler v current list.handler entry.handler }

end TerminalUI
