import TerminalUI.Program.Session

/-!
# State variables

A variable is the entry at a path, read and written as an element of one type. Reading an entry
that is missing or of another type is an error for `Var.tryGet` and a fault for `Var.get`; a write
that would lead through a leaf is a fault.
-/

namespace TerminalUI

/-- The state entry at a path, as an element of one type. -/
structure Var (α : Type) where
  path : Path

namespace Var

variable {α : Type} [Storable α]

/-- The value at the path, of whatever kind. -/
def value? (v : Var α) : Program (Option Value) := return (← Program.tree).resolve v.path

/-- The element at the path. -/
def tryGet (v : Var α) : Program (Except Error α) := return (← Program.tree).load α v.path

/-- The element at the path, which has to be there. -/
def get (v : Var α) : Program α := do
  match ← v.tryGet with
  | .ok a => return a
  | .error e => .fault (.state e)

/-- The element at the path, or another one if it cannot be read. -/
def getD (v : Var α) (default : α) : Program α := do
  match ← v.tryGet with
  | .ok a => return a
  | .error _ => return default

/-- Puts an element at the path. -/
def set (v : Var α) (a : α) : Program Unit := do
  match (← Program.tree).update v.path (Storable.store a) with
  | .ok t => Program.setTree t
  | .error e => .fault (.state e)

/-- Replaces the element at the path by a function of it. -/
def modify (v : Var α) (f : α → α) : Program Unit := do
  let a ← v.get
  v.set (f a)

/-- Removes the entry. -/
def clear (v : Var α) : Program Unit := do
  match (← Program.tree).remove v.path with
  | .ok t => Program.setTree t
  | .error e => .fault (.state e)

/-- The variable as a listing. -/
def listing (v : Var α) : String :=
  Listing.record "StateVar"
    [("path", v.path.describe), ("type", quoted (Storable.kind α).typeName)]

end Var

/-- Runs a program that has no binding points. -/
def Program.perform {α : Type} (p : Program α) : UI α := p.run none

end TerminalUI
