import TerminalUI.Style.Color

/-!
# Styles

A style is an optional foreground and background color, where none leaves the default of the
terminal in place, and a set of attributes. `Style.merge` layers one style on another: colors of
the upper one win and attributes add up.
-/

namespace TerminalUI

/-- A text attribute. -/
inductive Attribute where
  | bold | dim | italic | underline | blink | inverse
  deriving DecidableEq, Repr

/-- A set of text attributes. -/
structure AttributeSet where
  bold : Bool := false
  dim : Bool := false
  italic : Bool := false
  underline : Bool := false
  blink : Bool := false
  inverse : Bool := false
  deriving DecidableEq, Repr

namespace AttributeSet

/-- The set with one more attribute. -/
def insert (s : AttributeSet) : Attribute → AttributeSet
  | .bold => { s with bold := true }
  | .dim => { s with dim := true }
  | .italic => { s with italic := true }
  | .underline => { s with underline := true }
  | .blink => { s with blink := true }
  | .inverse => { s with inverse := true }

/-- Does the set hold this attribute? -/
def contains (s : AttributeSet) : Attribute → Bool
  | .bold => s.bold
  | .dim => s.dim
  | .italic => s.italic
  | .underline => s.underline
  | .blink => s.blink
  | .inverse => s.inverse

/-- All attributes of either set. -/
def union (s t : AttributeSet) : AttributeSet :=
  ⟨s.bold || t.bold, s.dim || t.dim, s.italic || t.italic, s.underline || t.underline,
    s.blink || t.blink, s.inverse || t.inverse⟩

/-- All attributes, in the order in which they are listed and sent to a terminal. -/
def order : List Attribute := [.bold, .dim, .italic, .underline, .blink, .inverse]

/-- The attributes of a set, in order. -/
def toList (s : AttributeSet) : List Attribute := order.filter s.contains

/-- Does the set hold nothing? -/
def isEmpty (s : AttributeSet) : Bool := s.toList.isEmpty

theorem contains_union (s t : AttributeSet) (a : Attribute) :
    (s.union t).contains a = (s.contains a || t.contains a) := by
  cases a <;> rfl

theorem contains_insert (s : AttributeSet) (a b : Attribute) :
    (s.insert a).contains b = (s.contains b || a == b) := by
  cases a <;> cases b <;> simp [insert, contains]

end AttributeSet

/-- Colors and attributes for a run of text. -/
structure Style where
  foreground : Option Color := none
  background : Option Color := none
  attributes : AttributeSet := {}
  deriving DecidableEq, Repr

namespace Style

/-- The style that leaves everything at the default of the terminal. -/
def plain : Style := {}

instance : Inhabited Style := ⟨plain⟩

/-- The style with one more attribute. -/
def withAttribute (s : Style) (a : Attribute) : Style :=
  { s with attributes := s.attributes.insert a }

/-- The style with another foreground. -/
def withForeground (s : Style) (c : Color) : Style := { s with foreground := some c }

/-- The style with another background. -/
def withBackground (s : Style) (c : Color) : Style := { s with background := some c }

/-- Layers `upper` on `lower`: its colors win and the attributes of both hold. -/
def merge (lower upper : Style) : Style where
  foreground := upper.foreground <|> lower.foreground
  background := upper.background <|> lower.background
  attributes := lower.attributes.union upper.attributes

end Style

end TerminalUI
