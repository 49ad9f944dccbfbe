import TerminalUI.Text.Quoted

/-!
# Listings of structured values

The form in which a value is listed with its structure: a name with its fields in braces, a name
with arguments in parentheses, items in brackets, or keys with their values in braces.
-/

namespace TerminalUI

namespace Listing

/-- A text in braces. -/
def braced (s : String) : String := "\x7b" ++ s ++ "\x7d"

/-- A name with named fields. -/
def record (name : String) (fields : List (String × String)) : String :=
  name ++ " " ++ braced (" " ++ ", ".intercalate (fields.map fun (f, v) => f ++ ": " ++ v) ++ " ")

/-- A name with arguments. -/
def call (name : String) (arguments : List String) : String :=
  name ++ "(" ++ ", ".intercalate arguments ++ ")"

/-- Items in brackets. -/
def items (texts : List String) : String := "[" ++ ", ".intercalate texts ++ "]"

/-- Keys in quotes, each with its value. -/
def entries (fields : List (String × String)) : String :=
  braced (", ".intercalate (fields.map fun (k, v) => quoted k ++ ": " ++ v))

/-- A value that may be absent. -/
def optional : Option String → String
  | none => "None"
  | some s => call "Some" [s]

/-- Texts in brackets, each of them quoted. -/
def texts (ss : List String) : String := items (ss.map quoted)

end Listing

end TerminalUI
