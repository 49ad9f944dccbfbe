import TerminalUI.Style.Basic

/-!
# Terminal commands

What a terminal is told to do, and the control sequence for each command. Colors are given by their
number in the terminal's palette or by their channels.
-/

namespace TerminalUI

/-- A command to a terminal. -/
inductive Command where
  /-- Shows or hides the cursor. -/
  | cursor (visible : Bool)
  /-- Moves the cursor up. -/
  | up (lines : Nat)
  /-- Moves the cursor to a column of its line, where 0 is the first. -/
  | column (n : Nat)
  /-- Clears from the cursor to the end of the screen. -/
  | clearBelow
  /-- Takes colors and attributes back to their defaults. -/
  | reset
  /-- Sets the foreground color; none is the default. -/
  | foreground (c : Option Color)
  /-- Sets the background color; none is the default. -/
  | background (c : Option Color)
  /-- Turns an attribute on. -/
  | turnOn (a : Attribute)
  /-- Prints a text at the cursor. -/
  | print (text : String)
  /-- Goes to the start of the next line. -/
  | lineBreak
  /-- Turns bracketed paste on or off. -/
  | bracketedPaste (on : Bool)
  deriving DecidableEq, Repr

/-- The parameters that select a color: its channels, or its number in the palette. -/
def Color.parameters : Color → List Nat
  | .black => [5, 0]
  | .darkRed => [5, 1]
  | .darkGreen => [5, 2]
  | .darkYellow => [5, 3]
  | .darkBlue => [5, 4]
  | .darkMagenta => [5, 5]
  | .darkCyan => [5, 6]
  | .grey => [5, 7]
  | .darkGrey => [5, 8]
  | .red => [5, 9]
  | .green => [5, 10]
  | .yellow => [5, 11]
  | .blue => [5, 12]
  | .magenta => [5, 13]
  | .cyan => [5, 14]
  | .white => [5, 15]
  | .palette n => [5, n.toNat]
  | .rgb r g b => [2, r.toNat, g.toNat, b.toNat]

/-- The parameter that turns an attribute on. -/
def Attribute.parameter : Attribute → Nat
  | .bold => 1
  | .dim => 2
  | .italic => 3
  | .underline => 4
  | .blink => 5
  | .inverse => 7

namespace Command

/-- A control sequence with parameters. -/
def sequence (parameters : List Nat) (final : String) : String :=
  "\x1b[" ++ ";".intercalate (parameters.map toString) ++ final

/-- A control sequence that turns a private mode on or off. -/
def mode (number : Nat) (on : Bool) : String :=
  "\x1b[?" ++ toString number ++ (if on then "h" else "l")

/-- The control sequence that selects a color, where `base` + 1 is the parameter for the default. -/
def color (base : Nat) : Option Color → String
  | none => sequence [base + 1] "m"
  | some c => sequence (base :: c.parameters) "m"

/-- What is sent to the terminal for a command. -/
def encode : Command → String
  | cursor visible => mode 25 visible
  | up n => sequence [n] "A"
  | column n => sequence [n + 1] "G"
  | clearBelow => sequence [] "J"
  | reset => sequence [0] "m"
  | foreground c => color 38 c
  | background c => color 48 c
  | turnOn a => sequence [a.parameter] "m"
  | print text => text
  | lineBreak => "\r\n"
  | bracketedPaste on => mode 2004 on

/-- What is sent to the terminal for commands. -/
def encodeAll (cs : List Command) : String := String.join (cs.map encode)

end Command

end TerminalUI
