import TerminalUI.Component
import TerminalUI.State.Listing

/-!
# Applications

An application is a component that runs at the root of a state tree, with the hook that steps in at
its binding points. Between events nothing but the state tree counts: the component runs again after
each of them.
-/

namespace TerminalUI

/-- A component that runs at the root of a state tree, with a hook. -/
structure Application where
  component : Component
  hook : Option Hook := none

namespace Application

/-- The scene for the current state. -/
def scene (app : Application) : UI Scene := (app.component.invoke .root).run app.hook

/-- Gives an event to the handler of a scene. -/
def react (app : Application) (scene : Scene) (event : Event) : UI Action :=
  (scene.handler event).run app.hook

end Application

/-- What a component is given to run with, as a listing: its level, and whether there is a hook. -/
def levelListing (level : Path) (hook : Option Hook) : String :=
  Listing.record "Context" [("path", level.describe), ("binding", toString hook.isSome)]

/-- The holder of a tree as a listing. -/
def storeListing (t : Tree) : String := Listing.call "Store" [t.listing]

end TerminalUI
