import TerminalUI.Key.Basic
import TerminalUI.State.Tree

/-!
# Programs over the state tree

Components and their handlers are programs that read and write the state tree. A program does not
run by itself: it says which tree it writes once it knows the one it reads, and where an event goes
through a *binding point*, a place at which a hook of the application may step in. Nothing in a
program can tell whether there is a hook. `Reaction` is a program that ends in an action, and
`Program` one that ends in any result; both have the same steps, and a binding point holds the
handler that the hook may call.
-/

namespace TerminalUI

/-- A program that ends in an action. -/
inductive Reaction where
  /-- Ends with an action. -/
  | done (action : Action)
  /-- Ends the application. -/
  | fault (f : Fault)
  /-- Reads the state tree. -/
  | read (next : Tree → Reaction)
  /-- Writes the state tree. -/
  | write (t : Tree) (next : Reaction)
  /-- Gives an event to the handler of a binding point, which a hook may do in its place. -/
  | dispatch (level : Path) (tag : String) (event : Event) (handler : Event → Reaction)
    (next : Action → Reaction)

/-- A program that ends in a result. -/
inductive Program (α : Type) where
  /-- Ends with a result. -/
  | done (a : α)
  /-- Ends the application. -/
  | fault (f : Fault)
  /-- Reads the state tree. -/
  | read (next : Tree → Program α)
  /-- Writes the state tree. -/
  | write (t : Tree) (next : Program α)
  /-- Gives an event to the handler of a binding point, which a hook may do in its place. -/
  | dispatch (level : Path) (tag : String) (event : Event) (handler : Event → Reaction)
    (next : Action → Program α)

namespace Program

variable {α β γ : Type}

/-- The program that goes on with the result of another one. -/
def bind (p : Program α) (f : α → Program β) : Program β :=
  match p with
  | .done a => f a
  | .fault e => .fault e
  | .read next => .read fun t => (next t).bind f
  | .write t next => .write t (next.bind f)
  | .dispatch level tag event handler next =>
    .dispatch level tag event handler fun a => (next a).bind f

instance : Monad Program where
  pure := .done
  bind := bind

@[simp]
theorem pure_eq (a : α) : (pure a : Program α) = .done a := rfl

@[simp]
theorem bind_eq (p : Program α) (f : α → Program β) : p >>= f = p.bind f := rfl

@[simp]
theorem done_bind (a : α) (f : α → Program β) : (done a).bind f = f a := rfl

@[simp]
theorem bind_done (p : Program α) : p.bind .done = p := by
  induction p with
  | done | fault => rfl
  | read next ih => simp [bind, ih]
  | write t next ih => simp [bind, ih]
  | dispatch level tag event handler next ih => simp [bind, ih]

theorem bind_assoc (p : Program α) (f : α → Program β) (g : β → Program γ) :
    (p.bind f).bind g = p.bind fun a => (f a).bind g := by
  induction p with
  | done | fault => rfl
  | read next ih => simp [bind, ih]
  | write t next ih => simp [bind, ih]
  | dispatch level tag event handler next ih => simp [bind, ih]

instance : LawfulMonad Program :=
  LawfulMonad.mk' Program (fun p => bind_done p) (fun _ _ => rfl) bind_assoc

/-- The state tree. -/
def tree : Program Tree := .read .done

/-- Replaces the state tree. -/
def setTree (t : Tree) : Program Unit := .write t (.done ())

/-- The result of a computation that may end the application. -/
def ofExcept : Except Fault α → Program α
  | .ok a => .done a
  | .error f => .fault f

/-- A program that ends in an action, as the handler of a binding point. -/
def toReaction : Program Action → Reaction
  | .done a => .done a
  | .fault f => .fault f
  | .read next => .read fun t => (next t).toReaction
  | .write t next => .write t next.toReaction
  | .dispatch level tag event handler next =>
    .dispatch level tag event handler fun a => (next a).toReaction

end Program

end TerminalUI
