import TerminalUI.Component
import TerminalUI.Key.Name

/-!
# Sample components

Small components to compose and to try out: a fixed view, one that shows the last key, one that
counts events, one whose child is made only once, and a stack of named parts with a focus.
-/

namespace TerminalUI

namespace Sample

/-- The name of the last key. -/
def lastName : Name := ⟨"last", by decide⟩
/-- The number of events. -/
def countName : Name := ⟨"n", by decide⟩
/-- The count at which a child was made. -/
def bornName : Name := ⟨"born", by decide⟩
/-- The child that is made only once. -/
def childName : Name := ⟨"child", by decide⟩

/-- A fixed view, which has no use for any event. -/
def still (view : View) : Component := fun _ => return { view, handler := .unused }

/-- Shows the name of the last key. Esc ends the application. -/
def echo (tag : String) : Component := fun level => do
  let last ← stateAt level lastName ""
  let handler : Handler := fun event => do
    let some key := event.key? | return .unused
    if key.isBare .escape then return .exit
    else
      last.set key.name
      return .consumed
  return { view := .plain ("last: " ++ (← last.get)), handler := withBinding level tag handler }

/-- Counts events. -/
def tally (tag : String) : Component := fun level => do
  let n ← stateAt level countName (0 : UInt32)
  let handler : Handler := fun _ => do
    n.modify (· + 1)
    return .consumed
  return {
    view := .plain (toString (← n.get).toNat)
    handler := withBinding level tag handler }

/-- The child that was made when the count stood at a number. -/
def made (count : UInt32) : Component := fun level => do
  let _ ← stateAt level bornName count
  return { view := .plain ("made at " ++ toString count.toNat), handler := .unused }

/-- Counts events, and shows a child that is told the count when it is made. -/
def frozen (interpret : Blueprint → Component) : Component := fun level => do
  let n ← stateAt level countName (0 : UInt32)
  let child ← Component.subcomponent interpret level childName (.made (← n.get))
  let handler : Handler := fun _ => do
    n.modify (· + 1)
    return .consumed
  return { view := child.view, handler := withBinding level "frozen" handler }

/-- The scenes of named parts, in order. -/
def partScenes (interpret : Blueprint → Component) (level : Path) : Parts → Program (List Scene)
  | .none => return []
  | .part name b rest => do
    let scene ← Component.subcomponent interpret level name b
    return scene :: (← partScenes interpret level rest)

/-- A box of views. -/
def arranged (arrangement : Arrangement) (gap focus : Nat) (views : List View) : View :=
  match arrangement with
  | .rows => .rows views focus
  | .columns => .columns views focus
  | .flexible => .flexible views focus gap

/-- Gives events to the focused part, and moves the focus with a Tab that it has no use for. -/
def stackHandler (focus : Var Nat) (current : Nat) (parts : List Handler) : Handler :=
  fun event => do
    let action ← (parts[current]?).elim (return .unused) (· event)
    if action = .unused && !parts.isEmpty && event.isBare .tab then
      focus.set ((current + 1) % parts.length)
      return .consumed
    else return action

/-- Named parts in a box, one of them with the focus. -/
def stack (interpret : Blueprint → Component) (arrangement : Arrangement) (gap : Nat)
    (parts : Parts) : Component := fun level => do
  let focus ← stateAt level focusName (0 : Nat)
  let scenes ← partScenes interpret level parts
  let current ← focus.get
  return {
    view := arranged arrangement gap current (scenes.map Scene.view)
    handler := stackHandler focus current (scenes.map Scene.handler) }

end Sample

end TerminalUI
