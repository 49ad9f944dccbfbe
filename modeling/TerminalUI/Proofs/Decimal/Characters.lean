import Mathlib.Data.List.TakeWhile
import TerminalUI.Decimal.Places
import TerminalUI.Decimal.Reading

/-!
# Characters of numbers

Of which characters numbers are made. There are no others in a number that is written with two
places (`isNumeral_of_mem_twoPlaces`), and no number is read from a text with any other one, unless
it is blank (`read?_eq_none`).
-/

namespace TerminalUI

namespace Decimal

/-- Signs, the point, the mark of a power of ten, and the letters of the numbers that are written as
words. -/
def marks : List Char := ['+', '-', '.', 'e', 'i', 'n', 'f', 't', 'y', 'a']

/-- Characters of numbers: digits and marks, in either case. -/
def isNumeral (c : Char) : Bool := c.isDigit || c.toLower ∈ marks

variable {c : Char} {cs : List Char}

/-! ### Writing -/

theorem isNumeral_of_mem_toString {n : Nat} (h : c ∈ (toString n).toList) : isNumeral c = true := by
  rw [Nat.toString_eq_repr, Nat.toList_repr] at h
  rw [isNumeral, Nat.isDigit_of_mem_toDigits (by decide) (by decide) h, Bool.true_or]

theorem isNumeral_of_mem_hundredths {n : Nat} (h : c ∈ (hundredths n).toList) :
    isNumeral c = true := by
  have hzero : isNumeral '0' = true := by decide
  have hpoint : isNumeral '.' = true := by decide
  simp only [hundredths, String.toList_append, List.mem_append] at h
  rcases h with (h | h) | h
  · exact isNumeral_of_mem_toString h
  · rwa [List.mem_singleton.1 h]
  · split at h
    · rcases List.mem_append.1 (String.toList_append ▸ h) with h | h
      · rwa [List.mem_singleton.1 h]
      · exact isNumeral_of_mem_toString h
    · exact isNumeral_of_mem_toString h

/-- A number with two places is made of the characters of numbers. -/
theorem isNumeral_of_mem_twoPlaces {x : Float} (h : c ∈ (twoPlaces x).toList) :
    isNumeral c = true := by
  have hsign : ∀ c ∈ "-".toList, isNumeral c = true := List.all_eq_true.1 (by decide)
  have hinfinite : ∀ c ∈ "inf".toList, isNumeral c = true := List.all_eq_true.1 (by decide)
  have hundefined : ∀ c ∈ "NaN".toList, isNumeral c = true := List.all_eq_true.1 (by decide)
  unfold twoPlaces placesOfBits at h
  dsimp only at h
  split at h
  · split at h
    · rcases List.mem_append.1 (String.toList_append ▸ h) with h | h
      · split at h
        · exact hsign c h
        · simp at h
      · exact hinfinite c h
    · exact hundefined c h
  · rcases List.mem_append.1 (String.toList_append ▸ h) with h | h
    · split at h
      · exact hsign c h
      · simp at h
    · exact isNumeral_of_mem_hundredths h

/-! ### Reading -/

theorem mem_takeDigits (hc : isNumeral c = false) (h : c ∈ cs) (count value : Nat) :
    c ∈ (takeDigits count value cs).2.2 := by
  induction cs generalizing count value with
  | nil => cases h
  | cons d cs ih =>
    rw [takeDigits]
    split
    · rename_i hd
      rcases List.mem_cons.1 h with rfl | h
      · simp [isNumeral, hd] at hc
      · exact ih h _ _
    · exact h

theorem mem_takeSign (hc : isNumeral c = false) (h : c ∈ cs) : c ∈ (takeSign cs).2 := by
  have hplus : c ≠ '+' := by rintro rfl; cases hc
  have hminus : c ≠ '-' := by rintro rfl; cases hc
  unfold takeSign
  split
  · exact (List.mem_cons.1 h).resolve_left hminus
  · exact (List.mem_cons.1 h).resolve_left hplus
  · exact h

theorem exponent?_eq_none (hc : isNumeral c = false) (h : c ∈ cs) : exponent? cs = none := by
  cases cs with
  | nil => cases h
  | cons d cs =>
    rw [exponent?]
    split
    · rename_i hd
      have hne : c ≠ d := by
        rintro rfl
        rcases hd with rfl | rfl <;> cases hc
      have hrest := mem_takeDigits hc (mem_takeSign hc ((List.mem_cons.1 h).resolve_left hne)) 0 0
      dsimp only
      split
      · rename_i heq
        rw [heq] at hrest
        cases hrest
      · rfl
    · rfl

theorem map_toLower_ne {word : List Char} (hword : word.all (· ∈ marks) = true)
    (hc : isNumeral c = false) (h : c ∈ cs) : cs.map Char.toLower ≠ word := by
  intro heq
  have hmark : c.toLower ∈ marks :=
    of_decide_eq_true (List.all_eq_true.1 hword _ (heq ▸ List.mem_map_of_mem h))
  simp [isNumeral, hmark] at hc

theorem unsigned?_eq_none (hc : isNumeral c = false) (h : c ∈ cs) (negative : Bool) :
    unsigned? negative cs = none := by
  have hwords : ¬ (cs.map Char.toLower = "inf".toList ∨ cs.map Char.toLower = "infinity".toList) :=
    not_or.2 ⟨map_toLower_ne (by decide) hc h, map_toLower_ne (by decide) hc h⟩
  have hword : ¬ cs.map Char.toLower = "nan".toList := map_toLower_ne (by decide) hc h
  rw [unsigned?]
  dsimp only
  rw [if_neg hwords, if_neg hword]
  -- whatever follows the digits still has the character
  have hrest := mem_takeDigits hc h 0 0
  generalize takeDigits 0 0 cs = taken at hrest ⊢
  obtain ⟨whole, value, rest⟩ := taken
  dsimp only at hrest ⊢
  split
  · rename_i rest' _
    have hpoint : c ≠ '.' := by rintro rfl; cases hc
    have hplaces := mem_takeDigits hc ((List.mem_cons.1 hrest).resolve_left hpoint) 0 value
    rw [exponent?_eq_none hc hplaces, Option.map_none, ite_self]
  · dsimp only
    rw [exponent?_eq_none hc hrest, Option.map_none, ite_self]

/-- A text with any other character is no number. -/
theorem read?_eq_none {s : String} (hc : isNumeral c = false) (hblank : isBlank c = false)
    (h : c ∈ s.toList) : read? s = none := by
  have hdrop {cs : List Char} (h : c ∈ cs) : c ∈ cs.dropWhile isBlank := by
    rw [← List.takeWhile_append_dropWhile (p := isBlank) (l := cs)] at h
    refine (List.mem_append.1 h).resolve_left fun htake => ?_
    rw [List.mem_takeWhile_imp htake] at hblank
    cases hblank
  have hinner : c ∈ ((s.toList.dropWhile isBlank).reverse.dropWhile isBlank).reverse :=
    List.mem_reverse.2 (hdrop (List.mem_reverse.2 (hdrop h)))
  rw [read?, literal?]
  dsimp only
  rw [unsigned?_eq_none hc (mem_takeSign hc hinner), Option.map_none]

end Decimal

end TerminalUI
