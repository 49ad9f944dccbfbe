import TerminalUI.Proofs.Text.Cutting

/-!
# Characters and lines around a boundary

A text that is not empty ends with a character and begins with one, and there is no boundary inside
of it. Every boundary is in a line, which goes from a place where lines start to one where they end
without a line feed in it (`exists_isLine`); so these are the nearest such places
(`IsLine.isGreatest_startsLine`, `IsLine.isLeast_endsLine`).
-/

namespace TerminalUI

variable {s before after front line rest : String} {n : Nat}

/-! ### Characters -/

theorem eq_empty_or_append_singleton (text : String) :
    text = "" ∨ ∃ front c, text = front ++ String.singleton c := by
  rcases List.eq_nil_or_concat text.toList with hnil | ⟨cs, c, hconcat⟩
  · exact .inl (String.toList_eq_nil_iff.1 hnil)
  · exact .inr ⟨.ofList cs, c, String.toList_inj.1 (by simp [hconcat])⟩

theorem eq_empty_or_singleton_append (text : String) :
    text = "" ∨ ∃ c rest, text = String.singleton c ++ rest := by
  cases htext : text.toList with
  | nil => exact .inl (String.toList_eq_nil_iff.1 htext)
  | cons c cs => exact .inr ⟨c, .ofList cs, String.toList_inj.1 (by simp [htext])⟩

/-- There is no boundary inside of a character. -/
theorem le_or_le_of_isBoundary {c : Char}
    (h : isBoundary (before ++ String.singleton c ++ after) n = true) :
    n ≤ byteLength before ∨ byteLength (before ++ String.singleton c) ≤ n := by
  obtain ⟨x, y, happend, rfl⟩ := isBoundary_iff.1 h
  rcases Nat.lt_or_ge (byteLength before) (byteLength x) with hlt | hle
  · -- what the part has after `before` begins with the character
    rw [String.append_assoc] at happend
    obtain ⟨z, rfl, hz⟩ := exists_append_of_le happend.symm (Nat.le_of_lt hlt)
    rcases eq_empty_or_singleton_append z with rfl | ⟨d, z, rfl⟩
    · simp at hlt
    · have hchars := congrArg String.toList hz
      simp only [String.toList_append, String.toList_singleton, List.cons_append,
        List.nil_append, List.cons.injEq] at hchars
      rw [hchars.1, ← String.append_assoc, byteLength_append (before ++ _)]
      exact .inr (Nat.le_add_right _ _)
  · exact .inl hle

/-- The last boundary before the end of a character is its start. -/
theorem isGreatest_boundary_lt (before after : String) (c : Char) :
    IsGreatest {n | isBoundary (before ++ String.singleton c ++ after) n = true ∧
      n < byteLength (before ++ String.singleton c)} (byteLength before) := by
  refine ⟨⟨isBoundary_iff.2 ⟨before, _, String.append_assoc.symm, rfl⟩, ?_⟩, ?_⟩
  · rw [byteLength_append, byteLength_singleton]
    exact Nat.lt_add_of_pos_right c.utf8Size_pos
  · rintro n ⟨hn, hlt⟩
    exact (le_or_le_of_isBoundary hn).resolve_right (Nat.not_le.2 hlt)

/-- The first boundary after the start of a character is its end. -/
theorem isLeast_boundary_gt (before after : String) (c : Char) :
    IsLeast {n | isBoundary (before ++ String.singleton c ++ after) n = true ∧
      byteLength before < n} (byteLength (before ++ String.singleton c)) := by
  refine ⟨⟨isBoundary_iff.2 ⟨_, after, rfl, rfl⟩, ?_⟩, ?_⟩
  · rw [byteLength_append, byteLength_singleton]
    exact Nat.lt_add_of_pos_right c.utf8Size_pos
  · rintro n ⟨hn, hlt⟩
    exact (le_or_le_of_isBoundary hn).resolve_left (Nat.not_le.2 hlt)

/-! ### Lines -/

/-- There is a line feed right after the offset. -/
def LineFeedAt (s : String) (n : Nat) : Prop :=
  ∃ before after, before ++ "\n" ++ after = s ∧ byteLength before = n

/-- Lines start at the start of the text and right after a line feed. -/
def StartsLine (s : String) (n : Nat) : Prop := n = 0 ∨ ∃ i, LineFeedAt s i ∧ n = i + 1

/-- Lines end at the end of the text and right before a line feed. -/
def EndsLine (s : String) (n : Nat) : Prop := n = byteLength s ∨ LineFeedAt s n

/-- A line of a text, with what comes before it and what comes after it. -/
structure IsLine (s front line rest : String) : Prop where
  append : front ++ line ++ rest = s
  opens : front = "" ∨ ∃ text, front = text ++ "\n"
  noFeed : '\n' ∉ line.toList
  closes : rest = "" ∨ ∃ text, rest = "\n" ++ text

/-- Up to a line feed or the end. -/
theorem exists_takeLine (cs : List Char) : ∃ line rest, line ++ rest = cs ∧ '\n' ∉ line ∧
    (rest = [] ∨ ∃ cs', rest = '\n' :: cs') := by
  induction cs with
  | nil => exact ⟨[], [], rfl, List.not_mem_nil, .inl rfl⟩
  | cons c cs ih =>
    by_cases hc : c = '\n'
    · exact ⟨[], c :: cs, rfl, List.not_mem_nil, .inr ⟨cs, hc ▸ rfl⟩⟩
    · obtain ⟨line, rest, happend, hline, hrest⟩ := ih
      exact ⟨c :: line, rest, congrArg (c :: ·) happend, by simpa [hline] using Ne.symm hc, hrest⟩

/-- Every place between two parts of a text is in a line. -/
theorem exists_isLine (before after : String) : ∃ front last first rest,
    front ++ last = before ∧ first ++ rest = after ∧
      IsLine (before ++ after) front (last ++ first) rest := by
  -- the start of the line is looked for from the place backwards
  obtain ⟨last, front, hbefore, hlast, hfront⟩ := exists_takeLine before.toList.reverse
  obtain ⟨first, rest, hafter, hfirst, hrest⟩ := exists_takeLine after.toList
  have hbefore' : String.ofList front.reverse ++ String.ofList last.reverse = before := by
    rw [← String.ofList_append, ← List.reverse_append, hbefore, List.reverse_reverse,
      String.ofList_toList]
  have hafter' : String.ofList first ++ String.ofList rest = after := by
    rw [← String.ofList_append, hafter, String.ofList_toList]
  refine ⟨.ofList front.reverse, .ofList last.reverse, .ofList first, .ofList rest, hbefore',
    hafter', ?_, ?_, by simp [hlast, hfirst], ?_⟩
  · rw [← hbefore', ← hafter']
    simp only [String.append_assoc]
  · rcases hfront with rfl | ⟨cs, rfl⟩
    · exact .inl rfl
    · exact .inr ⟨.ofList cs.reverse, String.toList_inj.1 (by simp)⟩
  · rcases hrest with rfl | ⟨cs, rfl⟩
    · exact .inl rfl
    · exact .inr ⟨.ofList cs, String.toList_inj.1 (by simp)⟩

namespace IsLine

theorem startsLine (h : IsLine s front line rest) : StartsLine s (byteLength front) := by
  rcases h.opens with rfl | ⟨text, rfl⟩
  · exact .inl rfl
  · refine .inr ⟨byteLength text, ⟨text, line ++ rest, ?_, rfl⟩, byteLength_append text "\n"⟩
    rw [← h.append, String.append_assoc, String.append_assoc, String.append_assoc]

theorem endsLine (h : IsLine s front line rest) : EndsLine s (byteLength (front ++ line)) := by
  rcases h.closes with rfl | ⟨text, rfl⟩
  · left
    rw [← h.append, String.append_empty]
  · refine .inr ⟨front ++ line, text, ?_, rfl⟩
    rw [← h.append, String.append_assoc]

/-- There is no line feed in a line. -/
theorem not_lineFeedAt (h : IsLine s front line rest) (hstart : byteLength front ≤ n)
    (hend : n < byteLength (front ++ line)) : ¬ LineFeedAt s n := by
  rintro ⟨before, after, happend, rfl⟩
  rw [← h.append, String.append_assoc, String.append_assoc] at happend
  -- the text before the line feed ends in the line, early enough for the line feed to be in it too
  obtain ⟨x, rfl, hx⟩ := exists_append_of_le happend.symm hstart
  rw [← String.append_assoc] at hx
  have hle : byteLength (x ++ "\n") ≤ byteLength line := by
    have hfeed : byteLength "\n" = 1 := rfl
    simp only [byteLength_append] at hend ⊢
    omega
  obtain ⟨y, hline, -⟩ := exists_append_of_le hx.symm hle
  apply h.noFeed
  simp [hline]

/-- From inside of a line, its start is the last place up to there where a line starts. -/
theorem isGreatest_startsLine (h : IsLine s front line rest) (hstart : byteLength front ≤ n)
    (hend : n ≤ byteLength (front ++ line)) :
    IsGreatest {i | i ≤ n ∧ StartsLine s i} (byteLength front) := by
  refine ⟨⟨hstart, h.startsLine⟩, ?_⟩
  rintro i ⟨hi, rfl | ⟨j, hfeed, rfl⟩⟩
  · exact Nat.zero_le _
  · refine Nat.le_of_not_lt fun hlt => ?_
    exact h.not_lineFeedAt (by omega) (by omega) hfeed

/-- From inside of a line, its end is the first place from there on where a line ends. -/
theorem isLeast_endsLine (h : IsLine s front line rest) (hstart : byteLength front ≤ n)
    (hend : n ≤ byteLength (front ++ line)) :
    IsLeast {i | n ≤ i ∧ EndsLine s i} (byteLength (front ++ line)) := by
  refine ⟨⟨hend, h.endsLine⟩, ?_⟩
  rintro i ⟨hi, rfl | hfeed⟩
  · rw [← h.append, byteLength_append (front ++ line)]
    exact Nat.le_add_right _ _
  · refine Nat.le_of_not_lt fun hlt => ?_
    exact h.not_lineFeedAt (by omega) (by omega) hfeed

/-- A boundary in a line cuts the line in two parts. -/
theorem exists_of_isBoundary (h : IsLine s front line rest) (hn : isBoundary s n = true)
    (hstart : byteLength front ≤ n) (hend : n ≤ byteLength (front ++ line)) :
    ∃ last first, last ++ first = line ∧ byteLength (front ++ last) = n := by
  obtain ⟨before, after, happend, rfl⟩ := isBoundary_iff.1 hn
  rw [← h.append, String.append_assoc] at happend
  obtain ⟨last, rfl, hlast⟩ := exists_append_of_le happend.symm hstart
  have hle : byteLength last ≤ byteLength line := by simpa using hend
  obtain ⟨first, hline, -⟩ := exists_append_of_le hlast.symm hle
  exact ⟨last, first, hline.symm, rfl⟩

end IsLine

end TerminalUI
