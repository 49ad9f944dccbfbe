import TerminalUI.Code.Buffer

/-!
# Pending overlays

An overlay is a text that is shown in place of a range of the buffer before it is really there,
such as a completion that has not been accepted. An overlay applies to a text when its range is one
of the text and it changes something.
-/

namespace TerminalUI

/-- A text shown in place of a range of bytes. -/
structure Overlay where
  start : Nat := 0
  stop : Nat := 0
  content : String := ""
  deriving DecidableEq, Repr

namespace Overlay

/-- The parts of a text before and after the range, if the overlay applies to it. -/
def around? (o : Overlay) (text : String) : Option (String × String) := do
  guard !(o.start == o.stop && o.content == "")
  guard (o.start ≤ o.stop)
  let (before, _) ← cutAt text o.start
  let (_, after) ← cutAt text o.stop
  return (before, after)

/-- The text that is shown, and the range of the overlay in it if it applies. -/
def shown (o : Overlay) (text : String) : String × Option (Nat × Nat) :=
  match o.around? text with
  | some (before, after) =>
    (before ++ o.content ++ after, some (o.start, o.start + byteLength o.content))
  | none => (text, none)

end Overlay

end TerminalUI
