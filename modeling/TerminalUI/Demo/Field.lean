import TerminalUI.Widget.CodeArea

/-!
# Fields

A field is a code area with a prompt.
-/

namespace TerminalUI

/-- A code area with a styled prompt. -/
def Blueprint.styledField (prompt : StyledText) : Blueprint :=
  .withStates [(CodeArea.promptName, .styled prompt)] .codeArea

/-- A code area with a prompt. -/
def Blueprint.field (prompt : String) : Blueprint := .styledField (.plain prompt)

end TerminalUI
