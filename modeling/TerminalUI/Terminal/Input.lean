import TerminalUI.Key.Basic

/-!
# Terminal input

What a terminal reports, and the events that it means. A pasted text means the start of a paste, a
key for each character and the end of the paste. Releases of keys, keys without a code, the focus and
the mouse mean nothing.
-/

namespace TerminalUI

/-- What happened to a key. -/
inductive KeyChange where
  | pressed | repeated | released
  deriving DecidableEq, Repr

/-- What a terminal reports. -/
inductive Input where
  /-- A key, whose code may be unknown. -/
  | key (code : Option KeyCode) (modifiers : Modifiers) (change : KeyChange)
  /-- A text was pasted. -/
  | paste (text : String)
  /-- The terminal has a new size. -/
  | resize (rows columns : Nat)
  /-- The terminal window has got the focus, or has lost it. -/
  | focus (gained : Bool)
  | mouse
  deriving DecidableEq, Repr

namespace Input

/-- A text whose line breaks are all a single character. -/
def unifyBreaks : List Char → List Char
  | [] => []
  | '\r' :: '\n' :: rest => '\n' :: unifyBreaks rest
  | c :: rest => c :: unifyBreaks rest

/-- The events of a pasted text. -/
def pasteEvents (text : String) : List Event :=
  .paste true :: (unifyBreaks text.toList).map (fun c => .key (.typed c)) ++ [.paste false]

/-- The events that an input means. -/
def events : Input → List Event
  | key (some code) modifiers change =>
    if change = .released then [] else [.key ⟨modifiers, code⟩]
  | key none _ _ => []
  | paste text => pasteEvents text
  | resize rows columns => [.resize rows columns]
  | focus _ => []
  | mouse => []

end Input

end TerminalUI
