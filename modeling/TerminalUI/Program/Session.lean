import TerminalUI.Program.Basic

/-!
# Running programs

A session holds the state tree of a running application and a journal of what hooks did. A `Hook`
is the application's way to step in at binding points: it is given the event, the level of the
component, the tag of the handler and the handler itself, and answers with an action or an error.
`Program.run` runs a program under a hook, or without one. A fault ends the run, and what was
written before it stays.

A hook that fails leaves its message in the entry `-error` of the component's level, where the
component's next scene shows it; the next success at that level removes it.
-/

namespace TerminalUI

/-- What the journal records. -/
inductive JournalEntry where
  /-- A hook dealt with an event at a binding point. -/
  | dispatched (tag : String) (level : Path) (outcome : Except Error Action)
  /-- An item of a list was chosen: its index, its text, and whether the list was empty, the last
  two if there is a list. -/
  | submitted (index : Nat) (item : Option String) (isEmpty : Option Bool)

/-- The state of a running application. -/
structure Session where
  tree : Tree := .empty
  /-- What was recorded, last first. -/
  journal : List JournalEntry := []

instance : Inhabited Session := ⟨{}⟩

/-- A computation in a session. -/
abbrev UI := ExceptT Fault (StateM Session)

namespace UI

/-- The state tree. -/
def tree : UI Tree := return (← get).tree

/-- Replaces the state tree. -/
def setTree (t : Tree) : UI Unit := modify fun s => { s with tree := t }

/-- Adds to the journal. -/
def record (e : JournalEntry) : UI Unit := modify fun s => { s with journal := e :: s.journal }

/-- Replaces the state tree by the result of a write that has to succeed. -/
def commit : Except Error Tree → UI Unit
  | .ok t => setTree t
  | .error e => throw (.state e)

end UI

/-- Steps in at binding points: gets the event, the level of the component, the tag of the handler
and the handler. -/
abbrev Hook := Event → Path → String → (Event → UI Action) → UI (Except Error Action)

/-- The entry that holds the message of a failed hook. -/
def errorName : Name := ⟨"-error", by decide⟩

/-- Gives an event to the handler of a binding point through the hook, if there is one, and keeps
the error entry of the level up to date. -/
def dispatchThrough (hook : Option Hook) (level : Path) (tag : String) (event : Event)
    (handler : Event → UI Action) : UI Action := do
  match hook with
  | none => handler event
  | some h =>
    let entry := level.child errorName
    match ← h event level tag handler with
    | .ok action =>
      let t ← UI.tree
      if (t.resolve entry).isSome then UI.commit (t.remove entry)
      return action
    | .error e =>
      UI.commit ((← UI.tree).update entry (.string e.message))
      return .errored

/-- Runs a program that ends in an action. -/
def Reaction.run (hook : Option Hook) : Reaction → UI Action
  | .done a => return a
  | .fault f => throw f
  | .read next => do (next (← UI.tree)).run hook
  | .write t next => do
    UI.setTree t
    next.run hook
  | .dispatch level tag event handler next => do
    let action ← dispatchThrough hook level tag event fun e => (handler e).run hook
    (next action).run hook

namespace Program

variable {α : Type}

/-- Runs a program. -/
def run (hook : Option Hook) : Program α → UI α
  | .done a => return a
  | .fault f => throw f
  | .read next => do (next (← UI.tree)).run hook
  | .write t next => do
    UI.setTree t
    next.run hook
  | .dispatch level tag event handler next => do
    let action ← dispatchThrough hook level tag event fun e => (handler e).run hook
    (next action).run hook

theorem run_toReaction (hook : Option Hook) (p : Program Action) :
    p.toReaction.run hook = p.run hook := by
  induction p with
  | done | fault => rfl
  | read next ih => simp [toReaction, Reaction.run, run, ih]
  | write t next ih => simp [toReaction, Reaction.run, run, ih]
  | dispatch level tag event handler next ih => simp [toReaction, Reaction.run, run, ih]

theorem run_bind {β : Type} (hook : Option Hook) (p : Program α) (f : α → Program β) :
    (p.bind f).run hook = p.run hook >>= fun a => (f a).run hook := by
  induction p with
  | done a => simp [bind, run]
  | fault e =>
    simp only [bind, run]
    rfl
  | read next ih => simp [bind, run, ih]
  | write t next ih => simp [bind, run, ih]
  | dispatch level tag event handler next ih => simp [bind, run, ih]

end Program

end TerminalUI
