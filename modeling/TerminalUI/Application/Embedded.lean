import TerminalUI.Application.Basic
import TerminalUI.Key.Name

/-!
# Embedded applications

An application that a host keeps between events, and draws when it likes. It holds the session and
the current scene, and makes a new scene after every event. A fault ends the application: nothing is
kept of it.
-/

namespace TerminalUI

/-- An application that waits for the next event. -/
structure Embedded where
  application : Application
  session : Session
  scene : Scene

namespace Embedded

/-- Starts an application on a state tree. -/
def start (application : Application) (tree : Tree := .empty) : Except Fault Embedded :=
  match application.scene.run { tree := tree } with
  | (.ok scene, session) => .ok ⟨application, session, scene⟩
  | (.error f, _) => .error f

/-- Does something in the session, and makes a new scene. -/
def refreshAfter {α : Type} (w : Embedded) (action : UI α) : Except Fault (α × Embedded) :=
  match (do return (← action, ← w.application.scene) : UI (α × Scene)).run w.session with
  | (.ok (a, scene), session) => .ok (a, { w with session, scene })
  | (.error f, _) => .error f

/-- The state tree. -/
def tree (w : Embedded) : Tree := w.session.tree

/-- Gives an event to the handler. -/
def dispatch (w : Embedded) (event : Event) : Except Fault (Action × Embedded) :=
  w.refreshAfter (w.application.react w.scene event)

/-- Gives events to the handler, one after the other. -/
def dispatchAll (w : Embedded) : List Event → Except Fault (List Action × Embedded)
  | [] => .ok ([], w)
  | event :: rest => do
    let (action, w) ← w.dispatch event
    let (actions, w) ← w.dispatchAll rest
    return (action :: actions, w)

/-- Types a text, one key for each character. -/
def type (w : Embedded) (text : String) : Except Fault (List Action × Embedded) :=
  w.dispatchAll (text.toList.map fun c => .key (.typed c))

/-- Reads the names of keys, with blanks between them. -/
def readKeys (names : String) : Except Error (List Key) := (words names).mapM Key.ofName

/-- Gives an event to the handler, and tells whether it had a use for it. -/
def handle (w : Embedded) (event : Event) : Except Fault (Bool × Embedded) := do
  let (action, w) ← w.dispatch event
  return (action ≠ .unused, w)

/-- Writes a value to the state tree. -/
def set (w : Embedded) (path : Path) (value : Value) : Except Fault Embedded := do
  let (_, w) ← w.refreshAfter do UI.commit ((← UI.tree).update path value)
  return w

/-- Removes an entry of the state tree. -/
def clear (w : Embedded) (path : Path) : Except Fault Embedded := do
  let (_, w) ← w.refreshAfter do UI.commit ((← UI.tree).remove path)
  return w

/-- The value of some kind in the state tree. -/
def get (w : Embedded) (path : Path) (kind : Kind) : Except Fault Value :=
  (w.tree.fetch path kind).mapError .state

/-- What to show at some size. -/
def render (w : Embedded) (width height : Nat) : Frame := w.scene.view.render width height

/-- What is drawn at some size, on a machine of words. -/
def draw (w : Embedded) (width height : Nat) : Except Fault Frame := w.scene.view.draw width height

/-- Number of lines that the application shows at some size. -/
def maxHeight (w : Embedded) (width height : Nat) : Nat := (w.render width height).height

/-- The application as a listing, of which only the state is shown. -/
def listing (w : Embedded) : String :=
  "Adapted " ++ Listing.braced (" state: " ++ storeListing w.tree ++ ", .. ")

end Embedded

end TerminalUI
