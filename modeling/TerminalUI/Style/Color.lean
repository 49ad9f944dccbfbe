import TerminalUI.Text.Number

/-!
# Colors

The sixteen basic colors, the palette of 256 and direct colors. `Color.ofName?` reads the names
that styling words use: one of the sixteen names, `color` and a number, or `#` and six hexadecimal
digits.
-/

namespace TerminalUI

/-- A terminal color. -/
inductive Color where
  | black | darkGrey | red | darkRed | green | darkGreen | yellow | darkYellow
  | blue | darkBlue | magenta | darkMagenta | cyan | darkCyan | white | grey
  /-- A direct color by its three channels. -/
  | rgb (r g b : UInt8)
  /-- An entry of the palette of 256 colors. -/
  | palette (n : UInt8)
  deriving DecidableEq, Repr

namespace Color

/-- Names of the basic colors, in the order of their palette numbers. -/
def names : List (String × Color) :=
  [("black", .black), ("red", .darkRed), ("green", .darkGreen), ("yellow", .darkYellow),
   ("blue", .darkBlue), ("magenta", .darkMagenta), ("cyan", .darkCyan), ("white", .grey),
   ("bright-black", .darkGrey), ("bright-red", .red), ("bright-green", .green),
   ("bright-yellow", .yellow), ("bright-blue", .blue), ("bright-magenta", .magenta),
   ("bright-cyan", .cyan), ("bright-white", .white)]

/-- A direct color from six digits, two to a channel. -/
def ofHexadecimal? (cs : List Char) : Option Color :=
  match cs with
  | [a, b, c, d, e, f] => do
    let r ← Number.byte? 16 [a, b]
    let g ← Number.byte? 16 [c, d]
    let b ← Number.byte? 16 [e, f]
    return .rgb (.ofNat r) (.ofNat g) (.ofNat b)
  | _ => none

/-- The color that a name stands for. -/
def ofName? (name : String) : Option Color :=
  match names.lookup name with
  | some c => some c
  | none =>
    match name.toList with
    | '#' :: digits => ofHexadecimal? digits
    | 'c' :: 'o' :: 'l' :: 'o' :: 'r' :: digits =>
      (Number.byte? 10 digits).map fun n => .palette (.ofNat n)
    | _ => none

/-- Is this one of the two reds? -/
def isRed (c : Color) : Bool := c = .red || c = .darkRed

/-- Is this one of the two greens? -/
def isGreen (c : Color) : Bool := c = .green || c = .darkGreen

/-- The palette number of a basic color; nothing for the others. -/
def basicIndex? : Color → Option Nat
  | .black => some 0
  | .darkRed => some 1
  | .darkGreen => some 2
  | .darkYellow => some 3
  | .darkBlue => some 4
  | .darkMagenta => some 5
  | .darkCyan => some 6
  | .grey => some 7
  | .darkGrey => some 8
  | .red => some 9
  | .green => some 10
  | .yellow => some 11
  | .blue => some 12
  | .magenta => some 13
  | .cyan => some 14
  | .white => some 15
  | .rgb .. | .palette _ => none

end Color

end TerminalUI
