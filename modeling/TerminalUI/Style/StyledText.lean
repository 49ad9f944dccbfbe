import TerminalUI.Style.Basic
import TerminalUI.Text.Offset
import TerminalUI.Text.Width

/-!
# Styled text

A text made of runs in one style each. Appending merges a run into the last one when their styles
agree and drops empty runs, so no run is ever empty. `StyledText.partition` cuts a text at byte
offsets.
-/

namespace TerminalUI

/-- A run of text in a single style. -/
structure Segment where
  style : Style
  text : String
  deriving DecidableEq, Repr

/-- Text made of styled runs. -/
structure StyledText where
  segments : List Segment := []
  deriving DecidableEq, Repr

namespace StyledText

instance : Inhabited StyledText := ⟨{}⟩

/-- Runs with one more at the end. -/
def pushRun (text : String) (style : Style) : List Segment → List Segment
  | [] => [⟨style, text⟩]
  | [last] => if last.style = style then [⟨style, last.text ++ text⟩] else [last, ⟨style, text⟩]
  | first :: second :: rest => first :: pushRun text style (second :: rest)

/-- The text with a run appended. -/
def push (t : StyledText) (text : String) (style : Style) : StyledText :=
  if text = "" then t else ⟨pushRun text style t.segments⟩

/-- Text in a single style. -/
def ofString (text : String) (style : Style) : StyledText := push {} text style

/-- Text in the default style. -/
def plain (text : String) : StyledText := ofString text .plain

/-- The text with another one appended. -/
def append (t other : StyledText) : StyledText :=
  other.segments.foldl (fun t seg => t.push seg.text seg.style) t

/-- All texts, one after the other. -/
def concat (parts : List StyledText) : StyledText := parts.foldl append {}

/-- Is there no text at all? -/
def isEmpty (t : StyledText) : Bool := t.segments.isEmpty

/-- The text without styles. -/
def text (t : StyledText) : String := String.join (t.segments.map Segment.text)

/-- Length of the text in bytes. -/
def length (t : StyledText) : Nat :=
  total (fun seg => byteLength seg.text) t.segments

/-- Columns that the text fills. -/
def width (t : StyledText) : Nat :=
  total (fun seg => displayWidth seg.text) t.segments

/-- The text with every style changed. -/
def restyle (t : StyledText) (f : Style → Style) : StyledText :=
  ⟨t.segments.map fun seg => { seg with style := f seg.style }⟩

/-- The text with an attribute turned on throughout. -/
def withAttribute (t : StyledText) (a : Attribute) : StyledText := t.restyle (·.withAttribute a)

/-- The text with one foreground throughout. -/
def withForeground (t : StyledText) (c : Color) : StyledText := t.restyle (·.withForeground c)

/-- Parts of a text that is being cut: the finished ones, last first, the part that still grows,
the bytes consumed so far and the cuts still to make. -/
structure Cutting where
  finished : List StyledText := []
  current : StyledText := {}
  position : Nat := 0
  cuts : List Nat
  deriving Repr

/-- Makes the cuts that fall within a run and keeps its last piece growing. A cut inside a
character fails. -/
def Cutting.run (style : Style) : List Nat → Cutting → String → Option Cutting
  | [], s, text =>
    some { s with
      current := s.current.push text style, position := s.position + byteLength text, cuts := [] }
  | cut :: cuts, s, text =>
    if cut > s.position + byteLength text then
      some { s with
        current := s.current.push text style, position := s.position + byteLength text
        cuts := cut :: cuts }
    else do
      let (head, tail) ← cutAt text (cut - s.position)
      Cutting.run style cuts
        { finished := s.current.push head style :: s.finished
          current := {}, position := s.position + byteLength head, cuts := cuts } tail

/-- Cuts a text at ascending byte offsets, which gives one more part than there are offsets.
Offsets past the end leave empty parts; one inside a character fails. -/
def partition? (t : StyledText) (offsets : List Nat) : Option (List StyledText) := do
  let s ← t.segments.foldlM (fun s seg => Cutting.run seg.style s.cuts s seg.text)
    ({ cuts := offsets } : Cutting)
  return (s.current :: s.finished).reverse ++ s.cuts.map fun _ => ({} : StyledText)

end StyledText

end TerminalUI
