/-!
# Small numbers in text

Key names and color names hold numbers of at most one byte: digits, with an optional plus sign in
front and any number of leading zeros.
-/

namespace TerminalUI

namespace Number

/-- The value of a digit below the radix, in either case. -/
def digit? (radix : Nat) (c : Char) : Option Nat :=
  let n := c.toNat
  let value :=
    if 0x30 ≤ n && n ≤ 0x39 then n - 0x30
    else if 0x41 ≤ n && n ≤ 0x5A then n - 0x41 + 10
    else if 0x61 ≤ n && n ≤ 0x7A then n - 0x61 + 10
    else radix
  if value < radix then some value else none

/-- The number that a sequence of digits continues; nothing if another character is among them. -/
def digits? (radix : Nat) : Nat → List Char → Option Nat
  | value, [] => some value
  | value, c :: cs => (digit? radix c).bind fun d => digits? radix (value * radix + d) cs

/-- A number of at most 255, with an optional plus sign. -/
def byte? (radix : Nat) (cs : List Char) : Option Nat :=
  let ds := match cs with
    | '+' :: rest => rest
    | _ => cs
  if ds.isEmpty then none
  else match digits? radix 0 ds with
    | some n => if n ≤ 255 then some n else none
    | none => none

end Number

end TerminalUI
