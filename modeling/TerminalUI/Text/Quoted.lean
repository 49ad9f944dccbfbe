import TerminalUI.Text.Extending
import TerminalUI.Text.Unprintable

/-!
# Quoted text

Error messages and state listings show a text in double quotes. Quotes and backslashes are escaped,
the common controls have short escapes, and marks and characters without a visible form are
written as their number, so that what is shown can be told apart letter by letter.
-/

namespace TerminalUI

namespace Quoted

/-- A lower-case hexadecimal number without leading zeros. -/
def hexadecimal (n : Nat) : List Char := Nat.toDigits 16 n

/-- The escape of a character by its number. -/
def numbered (c : Char) : List Char :=
  '\\' :: 'u' :: Char.ofNat 0x7B :: (hexadecimal c.toNat ++ [Char.ofNat 0x7D])

/-- A character as it is written between double quotes. -/
def escape (c : Char) : List Char :=
  if c = '"' then ['\\', '"']
  else if c = '\\' then ['\\', '\\']
  else if c = '\n' then ['\\', 'n']
  else if c = '\r' then ['\\', 'r']
  else if c = '\t' then ['\\', 't']
  else if c.toNat = 0 then ['\\', '0']
  else if CharSet.graphemeExtend.mem c || CharSet.unprintable.mem c then numbered c
  else [c]

end Quoted

/-- The text in double quotes. -/
def quoted (s : String) : String :=
  String.ofList ('"' :: (s.toList.flatMap Quoted.escape ++ ['"']))

end TerminalUI
