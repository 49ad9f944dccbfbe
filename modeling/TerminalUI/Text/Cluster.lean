import TerminalUI.Text.CharSet
import TerminalUI.Text.Extending
import TerminalUI.Text.Breaking

/-!
# Grapheme clusters

A text is laid out, moved through and styled in *clusters*: the extended grapheme clusters of the
Unicode text segmentation rules, which a reader perceives as one character. Whether a character
joins the cluster before it depends on the class of the last character and on three facts about
the cluster so far: whether it ends in an odd number of regional indicators, whether it ends in a
pictograph and a joiner, and whether it ends in a linked consonant. `Cluster.State` carries these,
and `clusters` cuts a text in one pass.
-/

namespace TerminalUI

namespace Cluster

/-- The classes of characters that cluster boundaries depend on. -/
inductive Class where
  | carriageReturn | lineFeed | breaking | extending | joiner | regional | prepended | spacing
  | leading | vowel | trailing | openSyllable | closedSyllable | pictographic | other
  deriving DecidableEq, Repr

/-- The class of a Hangul or Kirat Rai character, if it takes part in syllables. -/
def syllableClass (c : Char) : Option Class :=
  let n := c.toNat
  if (0x1100 ≤ n && n ≤ 0x115F) || (0xA960 ≤ n && n ≤ 0xA97C) then some .leading
  else if (0x1160 ≤ n && n ≤ 0x11A7) || (0xD7B0 ≤ n && n ≤ 0xD7C6) || n == 0x16D63 ||
      (0x16D67 ≤ n && n ≤ 0x16D6A) then some .vowel
  else if (0x11A8 ≤ n && n ≤ 0x11FF) || (0xD7CB ≤ n && n ≤ 0xD7FB) then some .trailing
  else if 0xAC00 ≤ n && n ≤ 0xD7A3 then
    if (n - 0xAC00) % 28 == 0 then some .openSyllable else some .closedSyllable
  else none

/-- The zero width joiner. -/
def zeroWidthJoiner : Char := Char.ofNat 0x200D

/-- The zero width non-joiner. -/
def zeroWidthNonJoiner : Char := Char.ofNat 0x200C

/-- Regional indicator symbols, which make flags in pairs. -/
def isRegional (c : Char) : Bool := 0x1F1E6 ≤ c.toNat && c.toNat ≤ 0x1F1FF

/-- Emoji skin tone modifiers. -/
def isModifier (c : Char) : Bool := 0x1F3FB ≤ c.toNat && c.toNat ≤ 0x1F3FF

/-- The class of a character. Every control character other than the two halves of a line end is
`breaking`. -/
def Class.of (c : Char) : Class :=
  if c = '\r' then .carriageReturn
  else if c = '\n' then .lineFeed
  else if isControl c then .breaking
  else if c.toNat < 0x7F then .other
  else if c = zeroWidthJoiner then .joiner
  else if isRegional c then .regional
  else if isModifier c || CharSet.graphemeExtend.mem c then .extending
  else if CharSet.prepended.mem c then .prepended
  else if CharSet.spacingMark.mem c then .spacing
  else if CharSet.breaking.mem c then .breaking
  else match syllableClass c with
    | some k => k
    | none => if CharSet.pictographic.mem c then .pictographic else .other

/-- Does a character of this class always stand alone? -/
def Class.isBreaking : Class → Bool
  | .carriageReturn | .lineFeed | .breaking => true
  | _ => false

/-- How far a sequence of characters that will join one more has come. -/
inductive Progress where
  /-- No such sequence ends here. -/
  | absent
  /-- The first character of one was seen, and since then only marks. -/
  | begun
  /-- The character that joins what follows was seen too. -/
  | ready
  deriving DecidableEq, Repr

/-- What the boundary after a cluster depends on. -/
structure State where
  /-- Class of the last character. -/
  last : Class
  /-- Does the cluster end in an odd number of regional indicators? -/
  oddRegionals : Bool
  /-- A pictograph, then a joiner. -/
  emoji : Progress
  /-- A consonant, then a linker. -/
  conjunct : Progress
  deriving DecidableEq, Repr

/-- The state before any character. -/
def State.initial : State := ⟨.other, false, .absent, .absent⟩

/-- The state after one more character of the cluster. -/
def State.next (s : State) (c : Char) : State :=
  let k := Class.of c
  { last := k
    oddRegionals := k == .regional && !s.oddRegionals
    emoji :=
      if k = .pictographic then .begun
      else if s.emoji = .begun && k = .extending then .begun
      else if s.emoji = .begun && k = .joiner then .ready
      else .absent
    conjunct :=
      if c.toNat < 0x300 then .absent
      else if CharSet.conjunctConsonant.mem c then .begun
      else if s.conjunct = .absent then .absent
      else if CharSet.conjunctLinker.mem c then .ready
      else if (k = .extending && c ≠ zeroWidthNonJoiner) || k = .joiner then s.conjunct
      else .absent }

/-- The state of a cluster that consists of one character. -/
def State.start (c : Char) : State := State.initial.next c

/-- Do characters of these two classes always belong together? -/
def Class.joins : Class → Class → Bool
  | .carriageReturn, .lineFeed => true
  | a, b =>
    if a.isBreaking || b.isBreaking then false
    else match a, b with
      | .leading, .leading | .leading, .vowel | .leading, .openSyllable
      | .leading, .closedSyllable => true
      | .openSyllable, .vowel | .openSyllable, .trailing | .vowel, .vowel
      | .vowel, .trailing => true
      | .closedSyllable, .trailing | .trailing, .trailing => true
      | _, .extending | _, .joiner | _, .spacing | .prepended, _ => true
      | _, _ => false

/-- Does the character belong to the cluster that led to this state? -/
def State.joins (s : State) (c : Char) : Bool :=
  let k := Class.of c
  s.last.joins k ||
    (s.emoji = .ready && k = .pictographic) ||
    (s.last = .regional && k = .regional && s.oddRegionals) ||
    (s.conjunct = .ready && !s.last.isBreaking && CharSet.conjunctConsonant.mem c)

/-- The clusters of a text that continues a cluster, whose characters are given last first. -/
def splitFrom (s : State) (cluster : List Char) : List Char → List (List Char)
  | [] => [cluster.reverse]
  | c :: cs =>
    if s.joins c then splitFrom (s.next c) (c :: cluster) cs
    else cluster.reverse :: splitFrom (State.start c) [c] cs

/-- The clusters of a text, in order. -/
def split : List Char → List (List Char)
  | [] => []
  | c :: cs => splitFrom (State.start c) [c] cs

theorem splitFrom_flatten (s : State) (cluster cs : List Char) :
    (splitFrom s cluster cs).flatten = cluster.reverse ++ cs := by
  induction cs generalizing s cluster with
  | nil => simp [splitFrom]
  | cons c cs ih =>
    unfold splitFrom
    split <;> simp [ih]

/-- Cutting a text into clusters loses nothing. -/
@[simp]
theorem split_flatten (cs : List Char) : (split cs).flatten = cs := by
  cases cs with
  | nil => rfl
  | cons c cs => simp [split, splitFrom_flatten]

end Cluster

/-- The grapheme clusters of a text, in order. -/
def clusters (s : String) : List String :=
  (Cluster.split s.toList).map String.ofList

end TerminalUI
