import TerminalUI.Path

/-!
# Errors

What can go wrong while an application runs, each with what is needed to report it. The wording is
in `Error.message` alone.
-/

namespace TerminalUI

/-- A failure that the application can handle. -/
inductive Error where
  /-- Input or output of the terminal failed. -/
  | terminal (reason : String)
  /-- A state entry has another type than the one asked for. -/
  | stateType (path : Path) (expected found : String)
  /-- There is no state entry. -/
  | stateMissing (path : Path)
  /-- A binding hook failed. -/
  | binding (reason : String)
  /-- A text is no key name. -/
  | parseKey (reason : String)
  /-- A text is no style. -/
  | parseStyle (reason : String)
  deriving DecidableEq, Repr

/-- The text that reports an error. -/
def Error.message : Error → String
  | .terminal reason => "terminal: " ++ reason
  | .stateType path expected found =>
    "state at " ++ path.toString ++ ": expected " ++ expected ++ ", found " ++ found
  | .stateMissing path => "state at " ++ path.toString ++ ": no value"
  | .binding reason => "binding: " ++ reason
  | .parseKey reason => "parse key: " ++ reason
  | .parseStyle reason => "parse style: " ++ reason

/-- The end of a computation that no handler sees. -/
inductive Fault where
  /-- A state entry that had to be there could not be read or written. -/
  | state (error : Error)
  /-- A position outside what it should address. -/
  | outOfRange
  /-- A text is to be made longer than texts can be. -/
  | tooWide
  /-- A number is no word. -/
  | overflow
  /-- A frame is not what it was asserted to be. -/
  | mismatch
  /-- Components are nested more deeply than a run allows. -/
  | tooDeep
  deriving DecidableEq, Repr

/-- The text that reports a fault, for those that have one. -/
def Fault.message? : Fault → Option String
  | .state e => some e.message
  | .mismatch => some "Buffer contents did not match expected pattern"
  | .outOfRange | .tooWide | .overflow | .tooDeep => none

end TerminalUI
