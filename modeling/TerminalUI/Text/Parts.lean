/-!
# Parts of texts

Whether a text holds another one or ends with it, and what stands before its end.
-/

namespace TerminalUI

namespace Parts

/-- Does `piece` occur in the characters? -/
def occurs (piece : List Char) : List Char → Bool
  | [] => piece.isEmpty
  | c :: cs => piece.isPrefixOf (c :: cs) || occurs piece cs

end Parts

/-- Does `piece` occur in the text? -/
def occursIn (piece s : String) : Bool := Parts.occurs piece.toList s.toList

/-- Does the text end with `tail`? -/
def endsWith (s tail : String) : Bool := tail.toList.isSuffixOf s.toList

/-- The text before its end `tail`, if it ends so. -/
def beforeSuffix? (s tail : String) : Option String :=
  if endsWith s tail then
    some (String.ofList (s.toList.take (s.toList.length - tail.toList.length)))
  else none

theorem endsWith_iff {s tail : String} :
    endsWith s tail = true ↔ ∃ before : List Char, before ++ tail.toList = s.toList := by
  simp only [endsWith, List.isSuffixOf_iff_suffix]
  rfl

theorem beforeSuffix?_eq_some_iff {s tail before : String} :
    beforeSuffix? s tail = some before ↔ before.toList ++ tail.toList = s.toList := by
  unfold beforeSuffix?
  split
  · rename_i h
    obtain ⟨b, hb⟩ := endsWith_iff.1 h
    have htake : s.toList.take (s.toList.length - tail.toList.length) = b := by
      rw [← hb]
      simp
    rw [htake, Option.some.injEq]
    constructor
    · rintro rfl
      simpa using hb
    · intro heq
      rw [← hb] at heq
      have := List.append_cancel_right heq
      rw [← this]
      simp
  · rename_i h
    simp only [reduceCtorEq, false_iff]
    exact fun heq => h (endsWith_iff.2 ⟨before.toList, heq⟩)

end TerminalUI
