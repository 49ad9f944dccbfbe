import TerminalUI.Measure

/-!
# Byte offsets into text

Positions in an edited text count the bytes of its UTF-8 encoding. Only some of them, the
*boundaries*, fall between two characters, and only at those can a text be cut.
-/

namespace TerminalUI

/-- The length of a text in bytes. -/
def byteLength (s : String) : Nat := s.utf8ByteSize

namespace Offset

/-- The length of a list of characters in bytes. -/
def size (cs : List Char) : Nat := total Char.utf8Size cs

/-- Cuts after exactly `n` bytes; fails when that is inside a character or past the end. -/
def cut : List Char → Nat → Option (List Char × List Char)
  | cs, 0 => some ([], cs)
  | [], _ + 1 => none
  | c :: cs, n + 1 =>
    if n + 1 < c.utf8Size then none
    else (cut cs (n + 1 - c.utf8Size)).map fun (before, after) => (c :: before, after)

/-- The last boundary at or before `n`. -/
def floor : List Char → Nat → Nat
  | [], _ => 0
  | c :: cs, n => if n < c.utf8Size then 0 else c.utf8Size + floor cs (n - c.utf8Size)

theorem append_of_cut {cs before after : List Char} {n : Nat}
    (h : cut cs n = some (before, after)) : before ++ after = cs ∧ size before = n := by
  induction cs generalizing n before after with
  | nil =>
    cases n with
    | zero => simp_all [cut, size]
    | succ n => simp [cut] at h
  | cons c cs ih =>
    cases n with
    | zero => simp_all [cut, size]
    | succ n =>
      simp only [cut] at h
      split at h
      · simp at h
      · rename_i hlt
        obtain ⟨⟨b, a⟩, hcut, heq⟩ := Option.map_eq_some_iff.1 h
        obtain ⟨hcat, hsize⟩ := ih hcut
        simp only [Prod.mk.injEq] at heq
        obtain ⟨rfl, rfl⟩ := heq
        refine ⟨by simp [hcat], ?_⟩
        simp only [size, total_cons] at hsize ⊢
        omega

end Offset

/-- The two parts of a text before and after a byte offset, if the offset is a boundary. -/
def cutAt (s : String) (n : Nat) : Option (String × String) :=
  (Offset.cut s.toList n).map fun (before, after) => (String.ofList before, String.ofList after)

/-- Does the offset fall between two characters, or at an end? -/
def isBoundary (s : String) (n : Nat) : Bool := (Offset.cut s.toList n).isSome

/-- The last boundary of a text at or before an offset. -/
def floorBoundary (s : String) (n : Nat) : Nat := Offset.floor s.toList n

end TerminalUI
