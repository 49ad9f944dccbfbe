import TerminalUI.Code.Buffer

/-!
# Cursor movements

Where the dot goes when it moves by one character, to the start of its line or to the end of it.
-/

namespace TerminalUI

/-- A movement of the dot. -/
inductive Movement where
  | left | right | lineStart | lineEnd
  deriving DecidableEq, Repr

namespace Movement

/-- The bytes up to the first line feed, or of the whole text. -/
def bytesInLine (cs : List Char) : Nat := Offset.size (cs.takeWhile (· ≠ '\n'))

/-- The dot after a movement, from the text before it and the text after it. -/
def target (m : Movement) (dot : Nat) (before after : List Char) : Nat :=
  match m with
  | .left => match before.reverse with
    | [] => dot
    | c :: _ => dot - c.utf8Size
  | .right => match after with
    | [] => dot
    | c :: _ => dot + c.utf8Size
  | .lineStart => dot - bytesInLine before.reverse
  | .lineEnd => dot + bytesInLine after

/-- The buffer with the dot moved. -/
def apply (m : Movement) (b : CodeBuffer) : Except Fault CodeBuffer := do
  let (before, after) ← b.split
  return { b with dot := m.target b.dot before.toList after.toList }

end Movement

end TerminalUI
