import TerminalUI.Code.WordClass
import TerminalUI.Text.Quoted

/-!
# Shell words

A pasted text can be quoted into one word of a shell. A text of harmless characters is a word as it
is. One of visible characters and blanks goes into single quotes, with every single quote doubled,
and any other one into double quotes, with escapes for what has no visible form.
-/

namespace TerminalUI

namespace ShellWord

/-- The single quote. -/
def quoteMark : Char := Char.ofNat 39

/-- Characters that need no quotes. -/
def isBare (c : Char) : Bool := isAlphanumeric c || "-_:%+,./@!~".toList.contains c

/-- Characters that show as themselves: the space, and all but controls and blanks. -/
def isVisible (c : Char) : Bool := c = ' ' || !(isControl c || isBlank c)

/-- The letter of a short escape, for the characters that have one. -/
def shortEscape? (c : Char) : Option Char :=
  match c.toNat with
  | 0x22 => some '"'
  | 0x5C => some '\\'
  | 0x0A => some 'n'
  | 0x09 => some 't'
  | 0x0D => some 'r'
  | 0x07 => some 'a'
  | 0x08 => some 'b'
  | 0x0B => some 'v'
  | 0x0C => some 'f'
  | 0x1B => some 'e'
  | _ => none

/-- A hexadecimal number of at least the given number of digits. -/
def padded (digits n : Nat) : List Char :=
  let ds := Quoted.hexadecimal n
  List.replicate (digits - ds.length) '0' ++ ds

/-- The escape of a character by its number, in the shortest of three forms. -/
def numberedEscape (c : Char) : List Char :=
  let n := c.toNat
  if n ≤ 0x7F then '\\' :: 'x' :: padded 2 n
  else if n ≤ 0xFFFF then '\\' :: 'u' :: padded 4 n
  else '\\' :: 'U' :: padded 8 n

/-- A character between double quotes. -/
def doubleQuoted (c : Char) : List Char :=
  match shortEscape? c with
  | some e => ['\\', e]
  | none => if isVisible c then [c] else numberedEscape c

/-- A character between single quotes. -/
def singleQuoted (c : Char) : List Char :=
  if c = quoteMark then [quoteMark, quoteMark] else [c]

/-- The word for a text. -/
def quoteChars (cs : List Char) : List Char :=
  if cs.isEmpty then [quoteMark, quoteMark]
  else if !cs.all isVisible then '"' :: (cs.flatMap doubleQuoted ++ ['"'])
  else if cs.head? ≠ some '~' && cs.all isBare then cs
  else quoteMark :: (cs.flatMap singleQuoted ++ [quoteMark])

/-- The text as one word of a shell. -/
def quote (s : String) : String := String.ofList (quoteChars s.toList)

end ShellWord

end TerminalUI
