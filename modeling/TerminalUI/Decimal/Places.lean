/-!
# Numbers with two decimal places

A number is written with two places after the point. It is rounded from its exact binary value, and
a value halfway between two decimals goes to the even one.
-/

namespace TerminalUI

namespace Decimal

/-- The whole number nearest to a quotient, ties to even. -/
def roundQuotient (num den : Nat) : Nat :=
  let q := num / den
  let r := num % den
  if 2 * r > den || (2 * r == den && q % 2 == 1) then q + 1 else q

/-- A number of hundredths, with a point before the last two digits. -/
def hundredths (n : Nat) : String :=
  let cents := toString (n % 100)
  toString (n / 100) ++ "." ++ (if n % 100 < 10 then "0" ++ cents else cents)

/-- A double, given by its bits, with two places. -/
def placesOfBits (bits : Nat) : String :=
  let negative := bits ≥ 1 <<< 63
  let field : Nat := (bits >>> 52) % 2048
  let fraction : Nat := bits % (1 <<< 52)
  let sign := if negative then "-" else ""
  if field = 2047 then
    if fraction = 0 then sign ++ "inf" else "NaN"
  else
    let m := if field = 0 then fraction else fraction + (1 <<< 52)
    let q : Int := ((if field = 0 then 1 else field : Nat) : Int) - 1075
    let n :=
      if 0 ≤ q then (m <<< q.toNat) * 100 else roundQuotient (m * 100) (1 <<< (-q).toNat)
    sign ++ hundredths n

/-- A number with two places. -/
def twoPlaces (x : Float) : String := placesOfBits x.toBits.toNat

end Decimal

end TerminalUI
