import TerminalUI.Program.Variable

/-!
# Components

A component is a program that, at a level of the state tree, gives a scene: what to show, and a
handler for the next event. It runs anew for every frame and keeps what it has to remember in
variables of its level. A variable is set to its initial value only if nothing is there.

A component inside another one lives at a level below. Its blueprint is kept there, in the entry
`-comp`, when it is used for the first time, and from then on the kept one counts.
-/

namespace TerminalUI

/-- Deals with an event. -/
abbrev Handler := Event → Program Action

/-- What a component shows, and how it deals with the next event. -/
structure Scene where
  view : View
  handler : Handler

/-- Gives a scene at a level of the state tree. -/
abbrev Component := Path → Program Scene

/-- The entry that holds the blueprint of a component. -/
def componentName : Name := ⟨"-comp", by decide⟩

/-- The entry that holds the index of the focused part, in components that are made of parts. -/
def focusName : Name := ⟨"focus", by decide⟩

/-- The handler that has no use for any event. -/
def Handler.unused : Handler := fun _ => return .unused

/-- A variable of a level, set to its initial value if nothing is there. -/
def stateAt {α : Type} [Storable α] (level : Path) (name : String) (initial : α) :
    Program (Var α) := do
  let v : Var α := ⟨level.child name⟩
  if (← v.value?).isNone then v.set initial
  return v

/-- The handler behind a binding point. -/
def withBinding (level : Path) (tag : String) (handler : Handler) : Handler :=
  fun event => .dispatch level tag event (fun e => (handler e).toReaction) .done

namespace Component

/-- The scene of a component at a level, which shows the message of a failed hook in its place. -/
def invoke (c : Component) : Component := fun level => do
  let scene ← c level
  let message : Var String := ⟨level.child errorName⟩
  match ← message.tryGet with
  | .ok m => return { scene with view := .error m }
  | .error _ => return scene

/-- Puts a value at a path, unless one is there. -/
def seed (path : Path) (value : Value) : Program Unit := do
  let t ← Program.tree
  if (t.resolve path).isNone then
    match t.update path value with
    | .ok t => Program.setTree t
    | .error e => .fault (.state e)

/-- The component with values put at paths below its level before it runs, each of them unless one
is there. -/
def withStates (states : List (Path × Value)) (c : Component) : Component := fun level => do
  states.forM fun (path, value) => seed (level ++ path) value
  c level

/-- The scene of the component kept under a name of a level, which is the given one if none was kept
before. `interpret` tells what a blueprint stands for. -/
def subcomponent (interpret : Blueprint → Component) (level : Path) (name : String)
    (b : Blueprint) : Program Scene := do
  let _ ← stateAt level name Tree.empty
  let child := level.child name
  let kept ← stateAt child componentName b
  (interpret (← kept.get)).invoke child

end Component

/-- A blueprint with values put at paths below it, in the given order. -/
def Blueprint.withStates (states : List (String × Value)) (b : Blueprint) : Blueprint :=
  states.foldr (fun (path, value) inner => .seeded (.ofString path) value inner) b

end TerminalUI
