import TerminalUI.Error
import TerminalUI.Text.Offset

/-!
# Code buffers

The text of a code area and the dot, a byte offset into it. Editing happens at the dot, which has to
be a boundary of the text: where it is not, an edit is a fault. Buffers made by `ofContent` and
`atEnd` are valid in this sense, and every edit of a valid buffer gives a valid one.
-/

namespace TerminalUI

/-- Edited text with the dot. -/
structure CodeBuffer where
  content : String := ""
  /-- Byte offset of the dot. -/
  dot : Nat := 0
  deriving DecidableEq, Repr

namespace CodeBuffer

/-- A buffer whose dot is the last boundary at or before an offset. -/
def ofContent (content : String) (dot : Nat) : CodeBuffer := ⟨content, floorBoundary content dot⟩

/-- A buffer with the dot at its end. -/
def atEnd (content : String) : CodeBuffer := ⟨content, byteLength content⟩

/-- Is the dot on a boundary of the content? -/
def Valid (b : CodeBuffer) : Prop := (cutAt b.content b.dot).isSome

instance (b : CodeBuffer) : Decidable b.Valid := inferInstanceAs (Decidable (_ = _))

/-- The text before the dot and the text after it. -/
def split (b : CodeBuffer) : Except Fault (String × String) :=
  match cutAt b.content b.dot with
  | some parts => .ok parts
  | none => .error .outOfRange

/-- The buffer with a text inserted before the dot. -/
def insert (b : CodeBuffer) (text : String) : Except Fault CodeBuffer := do
  let (before, after) ← b.split
  return ⟨before ++ text ++ after, b.dot + byteLength text⟩

/-- The buffer without the character before the dot; the same buffer if there is none. -/
def backspace (b : CodeBuffer) : Except Fault CodeBuffer := do
  let (before, after) ← b.split
  match before.toList.reverse with
  | [] => return b
  | c :: rest => return ⟨String.ofList rest.reverse ++ after, b.dot - c.utf8Size⟩

end CodeBuffer

end TerminalUI
