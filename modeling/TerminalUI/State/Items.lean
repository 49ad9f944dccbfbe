import TerminalUI.Style.StyledText
import TerminalUI.Text.Listing
import TerminalUI.Text.Parts

/-!
# Items of lists

A list box shows `Items`, a combo box fills its list through a `Generator`, and a submit callback is
told which item was chosen. All of these are values that the state tree can hold, and so are the
entries of a to-do list.
-/

namespace TerminalUI

/-- Items of a list: how each of them is shown, and how the collection is listed. -/
structure Items where
  shown : List StyledText
  listing : String
  deriving DecidableEq, Repr

namespace Items

/-- Number of items. -/
def size (l : Items) : Nat := l.shown.length

/-- How an item is shown; empty past the last one. -/
def item (l : Items) (i : Nat) : StyledText := l.shown.getD i {}

/-- Items that are plain texts. -/
def ofStrings (ss : List String) : Items where
  shown := ss.map .plain
  listing := Listing.call "StringItems" [Listing.texts ss]

/-- Items that are styled texts. -/
def ofStyled (ts : List StyledText) : Items where
  shown := ts
  listing := "<styled-items>"

end Items

/-- Makes the items for a filter text, and the index of the one that is selected first. -/
structure Generator where
  generate : String → Option Items × Nat

namespace Generator

/-- Makes nothing. -/
def nothing : Generator := ⟨fun _ => (none, 0)⟩

/-- The words that hold the filter text, in order. -/
def matching (all : List String) (filter : String) : List String :=
  all.filter (occursIn filter)

/-- Offers the words that hold the filter text, or nothing at all for the filter `none`. -/
def ofWords (all : List String) (selected : Nat) : Generator :=
  ⟨fun filter =>
    (if filter = "none" then none else some (.ofStrings (matching all filter)), selected)⟩

end Generator

/-- Told which item of a list was chosen. -/
inductive Submit where
  /-- Does nothing. -/
  | silent
  /-- Records the choice in the journal. -/
  | recorded
  deriving DecidableEq, Repr

/-- An entry of a to-do list. -/
structure Todo where
  text : String
  done : Bool := false
  deriving DecidableEq, Repr

end TerminalUI
