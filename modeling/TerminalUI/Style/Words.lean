import TerminalUI.Style.Basic
import TerminalUI.Error
import TerminalUI.Text.Pieces

/-!
# Styling words

A style is written as words with blanks between them: attributes, colors with `fg-` or `bg-` in
front, and bare colors, which set the foreground. Later words are layered on earlier ones, and a
word that is none of these makes the whole text no style.
-/

namespace TerminalUI

namespace Style

/-- The attribute that a word names. -/
def attributeOfName? : String → Option Attribute
  | "bold" => some .bold
  | "dim" => some .dim
  | "italic" => some .italic
  | "underline" | "underlined" => some .underline
  | "blink" => some .blink
  | "inverse" => some .inverse
  | _ => none

/-- The style that one word adds to. -/
def addWord (style : Style) (word : String) : Except Error Style :=
  match attributeOfName? word with
  | some a => .ok (style.withAttribute a)
  | none =>
    let color : Option Style := match word.toList with
      | 'b' :: 'g' :: '-' :: name =>
        (Color.ofName? (String.ofList name)).map style.withBackground
      | 'f' :: 'g' :: '-' :: name =>
        (Color.ofName? (String.ofList name)).map style.withForeground
      | _ => (Color.ofName? word).map style.withForeground
    match color with
    | some s => .ok s
    | none => .error (.parseStyle ("unknown styling " ++ quoted word))

/-- Reads a style. -/
def ofWords (s : String) : Except Error Style :=
  (words s).foldlM addWord plain

end Style

end TerminalUI
