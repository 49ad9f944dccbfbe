import TerminalUI.Program.Variable

/-!
# Hooks

Ways to make hooks: one that only calls the handler, and one that keeps a journal of another one.
-/

namespace TerminalUI

namespace Hook

/-- Calls the handler and does nothing else. -/
def transparent : Hook := fun event _ _ handler => return .ok (← handler event)

/-- Records in the journal how a hook dealt with each event. A hook that is called while another one
runs is recorded first. -/
def journaled (h : Hook) : Hook := fun event level tag handler => do
  let outcome ← h event level tag handler
  UI.record (.dispatched tag level outcome)
  return outcome

end Hook

/-- Tells a submit callback which item was chosen. -/
def Submit.call (s : Submit) (items : Option Items) (index : Nat) : UI Unit :=
  match s with
  | .silent => return ()
  | .recorded =>
    UI.record (.submitted index (items.map fun l => (l.item index).text)
      (items.map fun l => l.size == 0))

end TerminalUI
