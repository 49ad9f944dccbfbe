import TerminalUI.View.CodeLayout

/-!
# Views

A view is a description of what to draw, which `View.render` turns into a frame of a given size.
Boxes put views below each other, into columns of one width, or into columns as wide as their
content. A column of rows shows as many of them as its height has room for.

`View.render` computes with numbers of any size, and `View.draw` with machine words: what it gives is
the frame, unless a number overflows.
-/

namespace TerminalUI

/-- What a component shows. -/
inductive View where
  /-- Nothing. -/
  | empty
  /-- Spans of text, with the dot after the first `dotAfter` of them. -/
  | text (spans : List StyledText) (dotAfter : Nat)
  /-- A code area. -/
  | code (layout : CodeLayout)
  /-- Rows below each other; the dot is that of the focused row. -/
  | rows (rows : List View) (focus : Nat)
  /-- Columns of one width. -/
  | columns (columns : List View) (focus : Nat)
  /-- Columns as wide as their content, with a gap between them. -/
  | flexible (columns : List View) (focus gap : Nat)

namespace View

instance : Inhabited View := ⟨empty⟩

/-- A text with the dot in front. -/
def styled (t : StyledText) : View := text [t] 0

/-- A text in the default style. -/
def plain (s : String) : View := styled (.plain s)

/-- An error message, in red. -/
def error (message : String) : View := styled ((StyledText.plain message).withForeground .red)

/-- The message is one span of red text, with the dot in front. -/
theorem error_eq (message : String) :
    error message = text [.ofString message { foreground := some .red }] 0 := by
  unfold error styled StyledText.plain StyledText.ofString StyledText.push
  split <;> rfl

/-- The focused child of a box. -/
def focus : View → Nat
  | rows _ f | columns _ f | flexible _ f _ => f
  | _ => 0

/-- Writes spans, and sets the dot after span number `dotAfter`; `i` spans were written before. -/
def writeSpans (dotAfter : Nat) : Nat → Writer → List StyledText → Writer
  | _, w, [] => w
  | i, w, span :: spans =>
    let w := w.styled span
    writeSpans dotAfter (i + 1) (if i + 1 = dotAfter then w.setDot else w) spans

/-- The frame of a text. -/
def renderText (spans : List StyledText) (dotAfter width height : Nat) : Frame :=
  (writeSpans dotAfter 0 (.ofWidth width) spans).finish.trim 0 height

/-- The height that is left for row number `i` of `n`, below a number of lines. -/
def budget (height : Int) (lines n i : Nat) : Int := height - lines - n - i - 1

mutual

/-- Draws a view for a width and height. -/
def render : View → Nat → Nat → Frame
  | .empty, width, _ => .empty width
  | .text spans dotAfter, width, height => renderText spans dotAfter width height
  | .code layout, width, height => layout.render width height
  | .rows [] _, width, _ => .empty width
  | .rows (first :: rest) focus, width, height =>
    let n := rest.length + 1
    renderRows rest focus width (signedWord height) n 1
      (first.render width (signedWord height - n - 1).toNat)
  | .columns [] _, width, _ => .empty width
  | .columns (first :: rest) _, width, height =>
    let each := width / (rest.length + 1)
    renderColumns rest each height (first.render each height)
  | .flexible children _ gap, width, height =>
    renderFlexible children gap width height true (.empty 0)

/-- Draws further rows below a frame, from row number `i` of `n` on, until one has no room. -/
def renderRows : List View → Nat → Nat → Int → Nat → Nat → Frame → Frame
  | [], _, _, _, _, _, above => above
  | row :: rest, focus, width, height, n, i, above =>
    let room := budget height above.lines.length n i
    if room ≤ 0 then above
    else renderRows rest focus width height n (i + 1)
      (above.below (row.render width room.toNat) (i = focus))

/-- Draws further columns of one width beside a frame. -/
def renderColumns : List View → Nat → Nat → Frame → Frame
  | [], _, _, left => left
  | column :: rest, each, height, left =>
    renderColumns rest each height (left.beside (column.render each height))

/-- Draws further columns beside a frame, each as wide as its content, leaving at least a gap and
one column for every later one. -/
def renderFlexible : List View → Nat → Nat → Nat → Bool → Frame → Frame
  | [], _, _, _, _, left => left
  | column :: rest, gap, width, height, isFirst, left =>
    let drawn := column.render (width - (gap + 1) * rest.length) height
    let drawn := { drawn with width := drawn.contentWidth }
    let left := if isFirst then left else { left with width := left.width + gap }
    renderFlexible rest gap width height false (left.beside drawn)

end

/-- The frame with another one beside its own, if the width is a word. -/
def drawBeside (left right : Frame) : Except Fault Frame := do
  let _ ← checkWord (left.width + right.width)
  return left.beside right

mutual

/-- Draws a view for a width and height, on a machine of words. -/
def draw : View → Nat → Nat → Except Fault Frame
  | .empty, width, _ => .ok (.empty width)
  | .text spans dotAfter, width, height => .ok (renderText spans dotAfter width height)
  | .code layout, width, height => layout.draw width height
  | .rows [] _, width, _ => .ok (.empty width)
  | .rows (first :: rest) focus, width, height => do
    let n := rest.length + 1
    let room ← signedSubAll (signedWord height) [n, 1]
    drawRows rest focus width (signedWord height) n 1 (← first.draw width room.toNat)
  | .columns [] _, width, _ => .ok (.empty width)
  | .columns (first :: rest) _, width, height => do
    let each := width / (rest.length + 1)
    drawColumns rest each height (← first.draw each height)
  | .flexible children _ gap, width, height => drawFlexible children gap width height true (.empty 0)

/-- Draws further rows below a frame, from row number `i` of `n` on, until one has no room. -/
def drawRows : List View → Nat → Nat → Int → Nat → Nat → Frame → Except Fault Frame
  | [], _, _, _, _, _, above => .ok above
  | row :: rest, focus, width, height, n, i, above => do
    let room ← signedSubAll height [above.lines.length, n, i, 1]
    if room ≤ 0 then return above
    let drawn ← row.draw width room.toNat
    drawRows rest focus width height n (i + 1) (above.below drawn (i = focus))

/-- Draws further columns of one width beside a frame. -/
def drawColumns : List View → Nat → Nat → Frame → Except Fault Frame
  | [], _, _, left => .ok left
  | column :: rest, each, height, left => do
    drawColumns rest each height (← drawBeside left (← column.draw each height))

/-- Draws further columns beside a frame, each as wide as its content. -/
def drawFlexible : List View → Nat → Nat → Nat → Bool → Frame → Except Fault Frame
  | [], _, _, _, _, left => .ok left
  | column :: rest, gap, width, height, isFirst, left => do
    let reserved ← checkWord ((← checkWord (gap + 1)) * rest.length)
    let drawn ← column.draw (width - reserved) height
    let start ← if isFirst then pure left.width else checkWord (left.width + gap)
    let joined ← drawBeside { left with width := start } { drawn with width := drawn.contentWidth }
    drawFlexible rest gap width height false joined

end

section

variable (first row column : View) (rest columns : List View) (spans : List StyledText)
  (layout : CodeLayout) (dotAfter focus gap width height each n i : Nat) (frame : Frame)

theorem render_text :
    (text spans dotAfter).render width height = renderText spans dotAfter width height :=
  rfl

theorem render_code : (code layout).render width height = layout.render width height :=
  rfl

theorem render_rows_cons :
    (rows (first :: rest) focus).render width height =
      renderRows rest focus width (signedWord height) (rest.length + 1) 1
        (first.render width (signedWord height - (rest.length + 1 : Nat) - 1).toNat) :=
  rfl

theorem render_columns_cons :
    (View.columns (first :: rest) focus).render width height =
      renderColumns rest (width / (rest.length + 1)) height
        (first.render (width / (rest.length + 1)) height) :=
  rfl

theorem render_flexible :
    (flexible columns focus gap).render width height =
      renderFlexible columns gap width height true (.empty 0) :=
  rfl

theorem renderRows_cons (height : Int) :
    renderRows (row :: rest) focus width height n i frame =
      if budget height frame.lines.length n i ≤ 0 then frame
      else renderRows rest focus width height n (i + 1)
        (frame.below (row.render width (budget height frame.lines.length n i).toNat)
          (i = focus)) :=
  rfl

theorem renderColumns_cons :
    renderColumns (column :: rest) each height frame =
      renderColumns rest each height (frame.beside (column.render each height)) :=
  rfl

theorem renderFlexible_cons (isFirst : Bool) :
    renderFlexible (column :: rest) gap width height isFirst frame =
      let drawn := column.render (width - (gap + 1) * rest.length) height
      let frame := if isFirst then frame else { frame with width := frame.width + gap }
      renderFlexible rest gap width height false
        (frame.beside { drawn with width := drawn.contentWidth }) :=
  rfl

end

end View

end TerminalUI
