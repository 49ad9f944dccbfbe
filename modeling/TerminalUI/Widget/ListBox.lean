import TerminalUI.Component

/-!
# List box

A list of items, one of which is selected and shown in inverse. Up and Down move the selection. An
index past the end of the list counts as that of the last item, both when the list is shown and when
it is moved through.
-/

namespace TerminalUI

/-- The entry that holds the list box of a component with one. -/
def listName : Name := ⟨"list", by decide⟩

namespace ListBox

/-- The items, if there are any. -/
def itemsName : Name := ⟨"items", by decide⟩
/-- The index of the selected item. -/
def selectedName : Name := ⟨"selected", by decide⟩
/-- Told which item was chosen. -/
def submitName : Name := ⟨"submit", by decide⟩

/-- The tag of the handler. -/
def tag : String := "listbox"

/-- The items of the list box at a level. -/
def items (level : Path) : Var (Option Items) := ⟨level.child itemsName⟩

/-- The selection of the list box at a level. -/
def selected (level : Path) : Var Nat := ⟨level.child selectedName⟩

/-- An index brought into a list of some length. -/
def clamp (index length : Nat) : Nat := min index (length - 1)

/-- The spans of text that show items from number `i` on, with a line break before every one but the
first. -/
def spansFrom (selected : Nat) : Nat → List StyledText → List StyledText
  | _, [] => []
  | i, t :: ts =>
    (if i = 0 then [] else [StyledText.plain "\n"]) ++
      (if i = selected then t.withAttribute .inverse else t) :: spansFrom selected (i + 1) ts

/-- What a list with a selection looks like. The dot is before the selected item, which follows as
many spans as items and line breaks come before it. -/
def view (l : Option Items) (selected : Nat) : View :=
  match l with
  | none => .text [] 0
  | some l =>
    let i := clamp selected l.size
    .text (spansFrom i 0 l.shown) (2 * i)

/-- Moves the selection. -/
def handler (items : Var (Option Items)) (selected : Var Nat) : Handler := fun event => do
  let some key := event.key? | return .unused
  let length := (← items.get).elim 0 Items.size
  let i := clamp (← selected.get) length
  if key.isBare .up && i > 0 then
    selected.set (i - 1)
    return .consumed
  else if key.isBare .down && i + 1 < length then
    selected.set (i + 1)
    return .consumed
  else return .unused

end ListBox

/-- A list with a selection. -/
def listBox : Component := fun level => do
  let items ← stateAt level ListBox.itemsName (none : Option Items)
  let selected ← stateAt level ListBox.selectedName (0 : Nat)
  let _ ← stateAt level ListBox.submitName Submit.silent
  let l ← items.get
  let view ← match l with
    | none => pure (ListBox.view none 0)
    | some l => do pure (ListBox.view (some l) (← selected.get))
  return { view, handler := withBinding level ListBox.tag (ListBox.handler items selected) }

end TerminalUI
