import TerminalUI.State.Tree

/-!
# Listings of state

How the values of the state tree are listed, for inspection. Functions and components are only
named.
-/

namespace TerminalUI

/-- A color as a listing. -/
def Color.listing : Color → String
  | .black => "Black"
  | .darkGrey => "DarkGrey"
  | .red => "Red"
  | .darkRed => "DarkRed"
  | .green => "Green"
  | .darkGreen => "DarkGreen"
  | .yellow => "Yellow"
  | .darkYellow => "DarkYellow"
  | .blue => "Blue"
  | .darkBlue => "DarkBlue"
  | .magenta => "Magenta"
  | .darkMagenta => "DarkMagenta"
  | .cyan => "Cyan"
  | .darkCyan => "DarkCyan"
  | .white => "White"
  | .grey => "Grey"
  | .rgb r g b =>
    Listing.record "Rgb"
      [("r", toString r.toNat), ("g", toString g.toNat), ("b", toString b.toNat)]
  | .palette n => Listing.call "AnsiValue" [toString n.toNat]

/-- A set of attributes as a listing. -/
def AttributeSet.listing (s : AttributeSet) : String :=
  Listing.record "AttrSet"
    [("bold", toString s.bold), ("dim", toString s.dim), ("italic", toString s.italic),
     ("underline", toString s.underline), ("blink", toString s.blink),
     ("inverse", toString s.inverse)]

/-- A style as a listing. -/
def Style.listing (s : Style) : String :=
  Listing.record "Style"
    [("fg", Listing.optional (s.foreground.map Color.listing)),
     ("bg", Listing.optional (s.background.map Color.listing)),
     ("attrs", s.attributes.listing)]

/-- A styled text as a listing. -/
def StyledText.listing (t : StyledText) : String :=
  Listing.record "StyledText"
    [("segments", Listing.items (t.segments.map fun seg =>
      Listing.record "Segment" [("style", seg.style.listing), ("text", quoted seg.text)]))]

/-- A code buffer as a listing. -/
def CodeBuffer.listing (b : CodeBuffer) : String :=
  Listing.record "CodeBuffer" [("content", quoted b.content), ("dot", toString b.dot)]

/-- An overlay as a listing. -/
def Overlay.listing (o : Overlay) : String :=
  Listing.record "PendingCode"
    [("from", toString o.start), ("to", toString o.stop), ("content", quoted o.content)]

/-- A table of abbreviations as a listing. -/
def Abbreviations.listing (t : Abbreviations) : String :=
  Listing.record "Abbreviations"
    [("entries", Listing.items (t.entries.map fun (short, full) =>
      Listing.call "" [quoted short, quoted full]))]

/-- The fields of a to-do entry as a listing. -/
def Todo.listing (t : Todo) : String :=
  Listing.record "TodoItem" [("text", quoted t.text), ("done", toString t.done)]

mutual

/-- A value as a listing. -/
def Value.listing : Value → String
  | .map t => Listing.entries (Tree.entryListings t)
  | .string s => quoted s
  | .bool b => toString b
  | .word n => toString n.toNat
  | .index n => toString n
  | .integer n => toString n
  | .styled t => t.listing
  | .buffer b => b.listing
  | .overlay o => o.listing
  | .abbreviations t => t.listing
  | .highlighter _ => "<highlighter>"
  | .items l => Listing.optional (l.map Items.listing)
  | .submit _ => "<submit>"
  | .generator _ => "<gen-list>"
  | .component _ => "<comp>"
  | .strings ss => Listing.texts ss
  | .node n => n.listing
  | .todos l => Listing.items (l.map Todo.listing)
  | .press _ => "<on-press>"

/-- The names of a map, each with its value as a listing. -/
def Tree.entryListings : Tree → List (String × String)
  | .ofEntries es => es.listings

/-- The names of entries, each with its value as a listing. -/
def Entries.listings {bound : Option String} : Entries bound → List (String × String)
  | .nil => []
  | .cons k _ v rest => (k, Value.listing v) :: rest.listings

end

/-- A tree as a listing. -/
def Tree.listing (t : Tree) : String := Listing.entries t.entryListings

end TerminalUI
