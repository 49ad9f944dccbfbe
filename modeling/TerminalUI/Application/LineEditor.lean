import TerminalUI.Application.Run
import TerminalUI.Catalog
import TerminalUI.Hook.Editing

/-!
# Line editor

Reads a line of code on a terminal: a field whose content is the result once Enter or Esc submits it.
-/

namespace TerminalUI

namespace LineEditor

/-- A field with a prompt, which the submission keys end. -/
def application (prompt : StyledText) : Application where
  component := (Blueprint.styledField prompt).start
  hook := some Hook.submission

/-- The content of the code area at the root of a tree. -/
def content (t : Tree) : Except Error String :=
  match t.get? CodeArea.bufferName with
  | some (.buffer b) => .ok b.content
  | _ => .error (.stateMissing (.ofString CodeArea.bufferName))

/-- What was read in a run that ended. -/
def result : Ending → Except Fault (Except Error String)
  | .exited t => .ok (content t)
  | .failed e => .ok (.error e)
  | .crashed f => .error f

/-- Reads a line of code on a terminal, in so many rounds at most: what was read, unless the rounds
were used up, and the state of the terminal. -/
def read {σ : Type} (prompt : StyledText) (t : Terminal σ) (rounds : Nat) (device : σ) :
    Option (Except Fault (Except Error String)) × σ :=
  let report := (application prompt).runOn {} t rounds device
  (report.ending.map result, report.device)

end LineEditor

end TerminalUI
