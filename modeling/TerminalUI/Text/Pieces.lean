import TerminalUI.Text.CharSet

/-!
# Words, pieces and lines

Three ways to take a text apart: into words between blanks, into the pieces between separators, and
into lines.
-/

namespace TerminalUI

namespace Pieces

/-- The words of a text that continues a word, whose characters are given last first. -/
def wordsFrom (word : List Char) : List Char → List (List Char)
  | [] => if word.isEmpty then [] else [word.reverse]
  | c :: cs =>
    if isBlank c then
      if word.isEmpty then wordsFrom [] cs else word.reverse :: wordsFrom [] cs
    else wordsFrom (c :: word) cs

/-- The pieces of a text that continues a piece, whose characters are given last first. -/
def splitFrom (separator : Char) (piece : List Char) : List Char → List (List Char)
  | [] => [piece.reverse]
  | c :: cs =>
    if c = separator then piece.reverse :: splitFrom separator [] cs
    else splitFrom separator (c :: piece) cs

/-- A line without the carriage return that belongs to its end. -/
def stripReturn (line : List Char) : List Char :=
  match line.reverse with
  | '\r' :: rest => rest.reverse
  | _ => line

/-- The lines of a text, from its pieces between line feeds: every piece but the last one ended at a
line feed, and the last one counts only if it holds something. -/
def linesOf : List (List Char) → List (List Char)
  | [] => []
  | [last] => if last.isEmpty then [] else [last]
  | piece :: rest => stripReturn piece :: linesOf rest

end Pieces

/-- The longest stretches of a text without blanks. -/
def words (s : String) : List String :=
  (Pieces.wordsFrom [] s.toList).map String.ofList

/-- The pieces of a text between separators, empty ones included. -/
def pieces (separator : Char) (s : String) : List String :=
  (Pieces.splitFrom separator [] s.toList).map String.ofList

/-- The lines of a text. A line ends at a line feed, or at a carriage return and a line feed. -/
def lines (s : String) : List String :=
  (Pieces.linesOf (Pieces.splitFrom '\n' [] s.toList)).map String.ofList

end TerminalUI
