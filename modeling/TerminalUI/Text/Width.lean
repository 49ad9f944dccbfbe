import TerminalUI.Measure
import TerminalUI.Text.Cluster
import TerminalUI.Text.Wide
import TerminalUI.Text.Presentation

/-!
# Width of text on a terminal

A cluster fills one or two columns. Its width is the width of its characters read as one text,
brought into that range: most characters fill one column, East Asian wide ones two, marks none,
and some sequences are drawn as one sign (a presentation selector after its base, the lam-alef
ligatures, Khmer subscript letters and a few more). A text is as wide as its clusters together.
-/

namespace TerminalUI

namespace Width

/-- Does the character fill no column of its own? -/
def isZeroWidth (c : Char) : Bool :=
  let n := c.toNat
  CharSet.graphemeExtend.mem c || CharSet.ignorable.mem c ||
    (0x1160 ≤ n && n ≤ 0x11FF) || (0xD7B0 ≤ n && n ≤ 0xD7C6) || (0xD7CB ≤ n && n ≤ 0xD7FB) ||
    n == 0x605 || n == 0x70F || n == 0x890 || n == 0x891 || n == 0x8E2 || n == 0xA8FA

/-- The columns that a character fills when nothing around it changes that. -/
def ofChar (c : Char) : Nat :=
  let n := c.toNat
  if n ≤ 0xA0 then 1
  else if n == 0x2D7F then 1
  else if n == 0x115F || n == 0x17A4 then 2
  else if n == 0x17D8 then 3
  else if isZeroWidth c then 0
  else if CharSet.wide.mem c then 2
  else 1

/-- The presentation that the selector after a character asks for. -/
inductive Presentation where
  | text | emoji
  deriving DecidableEq, Repr

/-- The character, or the end of a sequence, that comes next and may be drawn as one sign with
what stands before it. -/
inductive Ligature where
  | absent | lineFeed | alef | lamed | joinedLamed | coengLetter | ya | joinedYa | joinedYaWithI
  | tifinagh | joinedTifinagh | linkedTifinagh | lisuTone | orkhonI | joinedOrkhonI
  | raiE | raiAi
  deriving DecidableEq, Repr

/-- What is known about the text after a character. -/
structure Following where
  /-- A presentation selector comes next. -/
  style : Option Presentation := none
  /-- Part of a ligature comes next. -/
  ligature : Ligature := .absent
  deriving DecidableEq, Repr

/-- Tifinagh letters that join into one sign. -/
def isTifinagh (n : Nat) : Bool := (0x2D31 ≤ n && n ≤ 0x2D65) || n == 0x2D6F

/-- Arabic letters of the alef group, which a lam joins. -/
def isAlef (n : Nat) : Bool :=
  n == 0x622 || n == 0x623 || n == 0x625 || n == 0x627 || (0x671 ≤ n && n ≤ 0x673) ||
    n == 0x675 || n == 0x773 || n == 0x774 || (0x870 ≤ n && n ≤ 0x882)

/-- Arabic letters of the lam group. -/
def isLam (n : Nat) : Bool :=
  n == 0x644 || (0x6B5 ≤ n && n ≤ 0x6B8) || n == 0x76A || n == 0x8A6 || n == 0x8C7

/-- Khmer letters that have a subscript form. -/
def hasSubscript (n : Nat) : Bool :=
  (0x1780 ≤ n && n ≤ 0x1782) || (0x1784 ≤ n && n ≤ 0x1787) || (0x1789 ≤ n && n ≤ 0x178C) ||
    (0x178E ≤ n && n ≤ 0x1793) || (0x1795 ≤ n && n ≤ 0x1798) || (0x179B ≤ n && n ≤ 0x179D) ||
    n == 0x17A0 || n == 0x17A2 || n == 0x17A7 || (0x17AB ≤ n && n ≤ 0x17AC) || n == 0x17AF

/-- Marks that may stand inside a ligature without breaking it. -/
def isTransparent (n : Nat) : Bool :=
  n == 0x34F || (0x17B4 ≤ n && n ≤ 0x17B5) || (0x180B ≤ n && n ≤ 0x180D) || n == 0x180F ||
    (0xFE00 ≤ n && n ≤ 0xFE0F) || (0xE0100 ≤ n && n ≤ 0xE01EF)

/-- The ligature that a character may be the last part of. -/
def Ligature.endingIn (c : Char) : Ligature :=
  let n := c.toNat
  if n < 0x300 then if c = '\n' then .lineFeed else .absent
  else if isAlef n then .alef
  else if n == 0x5DC then .lamed
  else if hasSubscript n then .coengLetter
  else if n == 0x1A10 then .ya
  else if isTifinagh n then .tifinagh
  else if 0xA4FC ≤ n && n ≤ 0xA4FD then .lisuTone
  else if n == 0x10C03 then .orkhonI
  else if n == 0x16D67 then .raiE
  else if n == 0x16D68 then .raiAi
  else .absent

/-- The sequence that begins with a joiner before one that begins so. -/
def Ligature.joined : Ligature → Ligature
  | .lamed => .joinedLamed
  | .ya => .joinedYa
  | .tifinagh => .joinedTifinagh
  | .orkhonI => .joinedOrkhonI
  | l => l

/-- What a character adds to the width before a ligature that it takes part in, and the sequence
that now begins with it; nothing when it takes no part. -/
def Ligature.extend (l : Ligature) (c : Char) : Option (Int × Ligature) :=
  let n := c.toNat
  match l with
  | .absent => none
  | .lineFeed => if c = '\r' then some (0, .absent) else none
  | .alef =>
    if isLam n then some (0, .absent)
    else if n ≠ 0x200C ∧ n ≠ 0x200D ∧ CharSet.graphemeExtend.mem c then some (0, .alef)
    else none
  | _ =>
    if n == 0x200D then some (0, l.joined)
    else if isTransparent n then some (0, l)
    else match l with
      | .joinedLamed => if n == 0x5D0 then some (0, .absent) else none
      | .coengLetter => if n == 0x17D2 then some (-1, .absent) else none
      | .joinedYa => if n == 0x1A17 then some (0, .joinedYaWithI) else none
      | .joinedYaWithI => if n == 0x1A15 then some (0, .absent) else none
      | .tifinagh => if n == 0x2D7F then some (1, .linkedTifinagh) else none
      | .joinedTifinagh =>
        if n == 0x2D7F then some (1, .linkedTifinagh)
        else if isTifinagh n then some (0, .absent)
        else none
      | .linkedTifinagh => if isTifinagh n then some (-1, .absent) else none
      | .lisuTone => if 0xA4F8 ≤ n && n ≤ 0xA4FB then some (0, .absent) else none
      | .joinedOrkhonI => if n == 0x10C32 then some (0, .absent) else none
      | .raiE =>
        if n == 0x16D63 then some (0, .absent)
        else if n == 0x16D67 then some (0, .raiAi)
        else if n == 0x16D68 then some (1, .raiE)
        else if n == 0x16D69 then some (0, .absent)
        else none
      | .raiAi => if n == 0x16D63 then some (0, .absent) else none
      | _ => none

/-- What a character adds to the width of the text after it, and what the text before it has to
know about that text. -/
def step (c : Char) (after : Following) : Int × Following :=
  if c.toNat == 0xFE0F then (0, { after with style := some .emoji })
  else if c.toNat == 0xFE0E then (0, { after with style := some .text })
  else match after.style with
    | some .emoji =>
      if CharSet.takesEmojiStyle.mem c then (2, {}) else plain after.ligature
    | some .text =>
      if CharSet.takesTextStyle.mem c then (1, {}) else plain after.ligature
    | none => plain after.ligature
where
  /-- The step when no presentation selector applies. -/
  plain (l : Ligature) : Int × Following :=
    match l.extend c with
    | some (w, l') => (w, { ligature := l' })
    | none => (ofChar c, { ligature := .endingIn c })

/-- The width of a text read as one sequence, and what stands at its beginning. -/
def measure : List Char → Int × Following
  | [] => (0, {})
  | c :: cs =>
    let (w, after) := measure cs
    let (v, before) := step c after
    (w + v, before)

end Width

/-- The columns that a cluster fills: one or two, and none for the empty text. -/
def clusterWidth (s : String) : Nat :=
  if s = "" then 0 else max 1 (min 2 (Width.measure s.toList).1.toNat)

/-- The columns that a text fills: those of its clusters together. -/
def displayWidth (s : String) : Nat := total clusterWidth (clusters s)

/-- Is this cluster a line break? -/
def isLineBreak (s : String) : Bool := s == "\n" || s == "\r\n"

/-- How a text that is one ASCII control character is shown: a caret and the character that is
64 code points away. Every other text has no such form. -/
def caretForm (s : String) : Option String :=
  match s.toList with
  | [c] =>
    if c.toNat < 0x20 || c.toNat == 0x7F then
      some (String.ofList ['^', Char.ofNat (c.toNat ^^^ 0x40)])
    else none
  | _ => none

theorem clusterWidth_le_two (s : String) : clusterWidth s ≤ 2 := by
  unfold clusterWidth
  split <;> omega

end TerminalUI
