/-!
# Actions

What a handler reports about an event that it was given.
-/

namespace TerminalUI

/-- The outcome of handling an event. -/
inductive Action where
  /-- The handler has no use for the event. -/
  | unused
  /-- The handler has dealt with it. -/
  | consumed
  /-- A binding hook failed. -/
  | errored
  /-- The application ends. -/
  | exit
  deriving DecidableEq, Repr

end TerminalUI
