import TerminalUI.Text.CharSet

/-!
# Reading decimal numbers

A number is an optional sign and either `inf`, `infinity` or `nan` in any case, or digits with an
optional decimal point among or around them and an optional power of ten. Its value is the floating
point number nearest to it, and of two equally near ones the even one.
-/

namespace TerminalUI

namespace Decimal

/-- A number as it is written. -/
inductive Literal where
  /-- Infinity. -/
  | infinite (negative : Bool)
  /-- Not a number. -/
  | undefined
  /-- The digits as one number, times a power of ten. -/
  | finite (negative : Bool) (digits : Nat) (exponent : Int)
  deriving DecidableEq, Repr

/-- Digits from the front of a text: how many there are, the number that they continue, and the
rest. -/
def takeDigits (count value : Nat) : List Char → Nat × Nat × List Char
  | [] => (count, value, [])
  | c :: cs =>
    if c.isDigit then takeDigits (count + 1) (value * 10 + (c.toNat - 0x30)) cs
    else (count, value, c :: cs)

/-- An optional sign. -/
def takeSign : List Char → Bool × List Char
  | '-' :: cs => (true, cs)
  | '+' :: cs => (false, cs)
  | cs => (false, cs)

/-- A power of ten that ends the text, or the end of the text. -/
def exponent? : List Char → Option Int
  | [] => some 0
  | c :: cs =>
    if c = 'e' ∨ c = 'E' then
      let (negative, rest) := takeSign cs
      match takeDigits 0 0 rest with
      | (count, value, []) =>
        if count = 0 then none else some (if negative then -value else value)
      | _ => none
    else none

/-- A number without its sign. -/
def unsigned? (negative : Bool) (cs : List Char) : Option Literal :=
  let word := cs.map Char.toLower
  if word = "inf".toList ∨ word = "infinity".toList then some (.infinite negative)
  else if word = "nan".toList then some .undefined
  else
    let (whole, value, rest) := takeDigits 0 0 cs
    let (places, value, rest) := match rest with
      | '.' :: rest => takeDigits 0 value rest
      | _ => (0, value, rest)
    if whole + places = 0 then none
    else (exponent? rest).map fun e => .finite negative value (e - places)

/-- Reads a number that takes up the whole text. -/
def literal? (cs : List Char) : Option Literal :=
  let (negative, rest) := takeSign cs
  unsigned? negative rest

/-- The bits of the double nearest to the quotient of two positive numbers, ties to even. -/
def quotientBits (num den : Nat) : Nat :=
  -- The quotient lies between `2 ^ (e - 1)` and `2 ^ (e + 1)`.
  let e : Int := num.log2 - den.log2
  let scale (q : Int) : Nat × Nat :=
    if 0 ≤ q then (num, den <<< q.toNat) else (num <<< (-q).toNat, den)
  -- One more binary place when the quotient is below `2 ^ e`.
  let e := let (a, b) := scale e
    if a < b then e - 1 else e
  -- The unit of the last place, no finer than that of the subnormal numbers.
  let q := max (e - 52) (-1074)
  let (a, b) := scale q
  let m := a / b
  let r := a % b
  let m := if 2 * r > b || (2 * r == b && m % 2 == 1) then m + 1 else m
  -- Rounding up to `2 ^ 53` carries into the exponent field by itself.
  let bits := if m < 1 <<< 52 then m else ((q + 1075).toNat <<< 52) + (m - (1 <<< 52))
  if bits ≥ 0x7FF0000000000000 then 0x7FF0000000000000 else bits

/-- The bits of the double nearest to `digits * 10 ^ exponent`. -/
def magnitudeBits (digits : Nat) (exponent : Int) : Nat :=
  let order := exponent + (Nat.toDigits 10 digits).length
  if digits = 0 ∨ order < -400 then 0
  else if order > 400 then 0x7FF0000000000000
  else if 0 ≤ exponent then quotientBits (digits * Nat.pow 10 exponent.toNat) 1
  else quotientBits digits (Nat.pow 10 (-exponent).toNat)

/-- The bit of the sign, in its place. -/
def signBit (negative : Bool) : Nat := if negative then 1 <<< 63 else 0

/-- The value of a written number. -/
def Literal.value : Literal → Float
  | .infinite negative => Float.ofBits (UInt64.ofNat (signBit negative + 0x7FF0000000000000))
  | .undefined => Float.ofBits (UInt64.ofNat 0x7FF8000000000000)
  | .finite negative digits exponent =>
    Float.ofBits (UInt64.ofNat (signBit negative + magnitudeBits digits exponent))

/-- The number that a text holds, blanks around it aside. -/
def read? (s : String) : Option Float :=
  let inner := ((s.toList.dropWhile isBlank).reverse.dropWhile isBlank).reverse
  (literal? inner).map Literal.value

end Decimal

end TerminalUI
