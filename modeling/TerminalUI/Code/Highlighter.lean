import TerminalUI.Style.StyledText

/-!
# Highlighters

A highlighter gives the code of a code area its styles, and may add tips to be shown below it.
-/

namespace TerminalUI

/-- Colors code and adds tips to it. -/
structure Highlighter where
  highlight : String → StyledText × List StyledText

namespace Highlighter

/-- Leaves the code as it is. -/
def plain : Highlighter := ⟨fun code => (.plain code, [])⟩

/-- Gives ASCII digits one style and all else another, and shows tips, of which the last one may
tell the length of the code. -/
def digits (digit other : Style) (tips : List StyledText) (tellLength : Bool) : Highlighter :=
  ⟨fun code =>
    let colored := code.toList.foldl
      (fun t c => t.push (String.singleton c) (if c.isDigit then digit else other)) {}
    let length : List StyledText :=
      if tellLength then [.plain ("len=" ++ toString (byteLength code))] else []
    (colored, tips ++ length)⟩

end Highlighter

end TerminalUI
