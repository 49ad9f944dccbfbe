/-!
# Sets of characters

A set of code points is kept as the sorted list of the code points at which membership changes:
a character belongs to the set when an odd number of changes lie at or below it. The classes that
texts, layouts and parsers ask about are given here when they are short, and in modules of their
own when they are long tables.
-/

namespace TerminalUI

/-- A set of characters, given by the sorted code points at which membership changes. -/
structure CharSet where
  /-- The first code point of the set, the first one after it that is outside, and so on. -/
  changes : Array Nat

namespace CharSet

/-- The first index from `lo` to `hi` whose change lies above `n`, found by halving. Every round
halves the interval, so as many rounds as it is long are more than enough. -/
def rank (changes : Array Nat) (n : Nat) : Nat → Nat → Nat → Nat
  | 0, lo, _ => lo
  | rounds + 1, lo, hi =>
    if lo < hi then
      let middle := (lo + hi) / 2
      if changes.getD middle 0 ≤ n then rank changes n rounds (middle + 1) hi
      else rank changes n rounds lo middle
    else lo

/-- Does the character belong to the set? -/
def mem (s : CharSet) (c : Char) : Bool :=
  rank s.changes c.toNat s.changes.size 0 s.changes.size % 2 == 1

end CharSet

/-- Control characters: C0, DEL and C1. -/
def isControl (c : Char) : Bool :=
  c.toNat < 0x20 || (0x7F ≤ c.toNat && c.toNat ≤ 0x9F)

/-- Blanks: the characters with the `White_Space` property. -/
def isBlank (c : Char) : Bool :=
  let n := c.toNat
  (9 ≤ n && n ≤ 13) || n == 0x20 || n == 0x85 || n == 0xA0 || n == 0x1680 ||
    (0x2000 ≤ n && n ≤ 0x200A) || n == 0x2028 || n == 0x2029 || n == 0x202F || n == 0x205F ||
    n == 0x3000

end TerminalUI
