import TerminalUI.Text.Alphanumeric

/-!
# Word classes

A character of code is a blank, part of a word, or punctuation.
-/

namespace TerminalUI

/-- The class of a character of code. -/
inductive WordClass where
  | space | word | punctuation
  deriving DecidableEq, Repr

/-- Is the character a letter or a digit? -/
def isAlphanumeric (c : Char) : Bool := CharSet.alphanumeric.mem c

/-- The class of a character. -/
def WordClass.of (c : Char) : WordClass :=
  if isBlank c then .space
  else if isAlphanumeric c || c = '_' then .word
  else .punctuation

end TerminalUI
