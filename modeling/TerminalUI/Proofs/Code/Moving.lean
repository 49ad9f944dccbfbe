import TerminalUI.Proofs.Code.Editing

/-!
# Where the dot goes

Left and Right take the dot over one character, so they go to the nearest boundary on their side and
undo each other. Home and End go to the ends of the line that the dot is in, and from anywhere in the
line to the same ones (`Movement.lineStart_of_isLine`, `Movement.lineEnd_of_isLine`).

* `Movement.movement_laws` : **where each movement goes, for every text and every dot.**
-/

namespace TerminalUI

namespace Movement

open CodeBuffer

variable {b : CodeBuffer} {s before after front line rest : String} {d : Nat}

theorem ofParts_eq (h : before ++ after = s) : ofParts before after = ⟨s, byteLength before⟩ := by
  rw [ofParts, h]

/-! ### By one character -/

/-- One character back is the last boundary before the dot, and from there Right goes back again. -/
theorem exists_left (h : b.Valid) : ∃ l, left.apply b = .ok { b with dot := l } ∧
    isBoundary b.content l = true ∧ (b.dot = 0 → l = 0) ∧
    (0 < b.dot → IsGreatest {n | isBoundary b.content n = true ∧ n < b.dot} l) ∧
    (l ≠ b.dot → right.apply { b with dot := l } = .ok b) := by
  obtain ⟨before, after, rfl⟩ := valid_iff.1 h
  rcases eq_empty_or_append_singleton before with rfl | ⟨front, c, rfl⟩
  · exact ⟨0, apply_left_of_empty after, isBoundary_of_valid h, fun _ => rfl,
      fun hpos => absurd hpos (Nat.lt_irrefl 0), fun hne => absurd rfl hne⟩
  · have hmoved : ofParts front (String.singleton c ++ after) =
        { ofParts (front ++ String.singleton c) after with dot := byteLength front } :=
      ofParts_eq String.append_assoc.symm
    have hgreatest := isGreatest_boundary_lt front after c
    refine ⟨byteLength front, ?_, hgreatest.1.1, fun hzero => ?_, fun _ => hgreatest, fun _ => ?_⟩
    · rw [apply_left, hmoved]
    · rw [dot_ofParts, byteLength_append] at hzero
      exact Nat.eq_zero_of_add_eq_zero_right hzero
    · rw [← hmoved, apply_right]

/-- One character on is the first boundary after the dot, and from there Left goes back again. -/
theorem exists_right (h : b.Valid) : ∃ r, right.apply b = .ok { b with dot := r } ∧
    isBoundary b.content r = true ∧ (b.dot = byteLength b.content → r = byteLength b.content) ∧
    (b.dot < byteLength b.content → IsLeast {n | isBoundary b.content n = true ∧ b.dot < n} r) ∧
    (r ≠ b.dot → left.apply { b with dot := r } = .ok b) := by
  obtain ⟨before, after, rfl⟩ := valid_iff.1 h
  rcases eq_empty_or_singleton_append after with rfl | ⟨c, rest, rfl⟩
  · refine ⟨byteLength before, apply_right_of_empty before, isBoundary_of_valid h, fun hend => hend,
      fun hlt => ?_, fun hne => absurd rfl hne⟩
    rw [content_ofParts, String.append_empty] at hlt
    exact absurd hlt (Nat.lt_irrefl _)
  · have hcontent : before ++ String.singleton c ++ rest = before ++ (String.singleton c ++ rest) :=
      String.append_assoc
    have hmoved : ofParts (before ++ String.singleton c) rest =
        { ofParts before (String.singleton c ++ rest) with
          dot := byteLength (before ++ String.singleton c) } :=
      ofParts_eq hcontent
    have hleast := isLeast_boundary_gt before rest c
    rw [hcontent] at hleast
    refine ⟨byteLength (before ++ String.singleton c), ?_, hleast.1.1, fun hend => ?_,
      fun _ => hleast, fun _ => ?_⟩
    · rw [apply_right, hmoved]
    · have hpos := c.utf8Size_pos
      simp only [dot_ofParts, content_ofParts, byteLength_append, byteLength_singleton] at hend
      omega
    · rw [← hmoved, apply_left]

/-! ### In the line -/

/-- From anywhere in a line, Home goes to its start. -/
theorem lineStart_of_isLine (h : IsLine s front line rest) (hd : isBoundary s d = true)
    (hstart : byteLength front ≤ d) (hend : d ≤ byteLength (front ++ line)) :
    lineStart.apply ⟨s, d⟩ = .ok ⟨s, byteLength front⟩ := by
  obtain ⟨last, first, rfl, rfl⟩ := h.exists_of_isBoundary hd hstart hend
  have hhere : front ++ last ++ (first ++ rest) = s := by
    rw [← h.append]
    simp only [String.append_assoc]
  have hthere : front ++ (last ++ first ++ rest) = s := by
    rw [← h.append]
    simp only [String.append_assoc]
  rw [← ofParts_eq hhere, apply_lineStart h, ofParts_eq hthere]

/-- From anywhere in a line, End goes to its end. -/
theorem lineEnd_of_isLine (h : IsLine s front line rest) (hd : isBoundary s d = true)
    (hstart : byteLength front ≤ d) (hend : d ≤ byteLength (front ++ line)) :
    lineEnd.apply ⟨s, d⟩ = .ok ⟨s, byteLength (front ++ line)⟩ := by
  obtain ⟨last, first, rfl, rfl⟩ := h.exists_of_isBoundary hd hstart hend
  have hhere : front ++ last ++ (first ++ rest) = s := by
    rw [← h.append]
    simp only [String.append_assoc]
  rw [← ofParts_eq hhere, apply_lineEnd h, ofParts_eq h.append]

/-- Home and End go to the ends of a line that the dot is in. -/
theorem exists_line (h : b.Valid) : ∃ front line rest, IsLine b.content front line rest ∧
    byteLength front ≤ b.dot ∧ b.dot ≤ byteLength (front ++ line) := by
  obtain ⟨before, after, rfl⟩ := valid_iff.1 h
  obtain ⟨front, last, first, rest, rfl, rfl, hline⟩ := exists_isLine before after
  refine ⟨front, last ++ first, rest, hline, ?_, ?_⟩ <;>
    simp only [dot_ofParts, byteLength_append] <;> omega

/-- **Where the movements go.** With the dot on a boundary, no movement fails. Left goes to the last
boundary before the dot and Right to the first one after it, they stay at the ends of the text, and
where one of them moves the other one takes the dot back. Home goes to the last place up to the dot
where a line starts, End to the first one from there on where a line ends. There is no line feed
between the two, from every boundary between them Home and End go to the same places, so that they
stay there; and all these are boundaries of the text. -/
theorem movement_laws (h : b.Valid) : ∃ l r s e,
    (left.apply b = .ok { b with dot := l } ∧ right.apply b = .ok { b with dot := r } ∧
      lineStart.apply b = .ok { b with dot := s } ∧ lineEnd.apply b = .ok { b with dot := e }) ∧
    ((b.dot = 0 → l = 0) ∧
      (0 < b.dot → IsGreatest {n | isBoundary b.content n = true ∧ n < b.dot} l) ∧
      (l ≠ b.dot → right.apply { b with dot := l } = .ok b)) ∧
    ((b.dot = byteLength b.content → r = byteLength b.content) ∧
      (b.dot < byteLength b.content → IsLeast {n | isBoundary b.content n = true ∧ b.dot < n} r) ∧
      (r ≠ b.dot → left.apply { b with dot := r } = .ok b)) ∧
    (IsGreatest {n | n ≤ b.dot ∧ StartsLine b.content n} s ∧
      lineStart.apply { b with dot := s } = .ok { b with dot := s }) ∧
    (IsLeast {n | b.dot ≤ n ∧ EndsLine b.content n} e ∧
      lineEnd.apply { b with dot := e } = .ok { b with dot := e }) ∧
    (∀ n, s ≤ n → n < e → ¬ LineFeedAt b.content n) ∧
    (∀ d, isBoundary b.content d = true → s ≤ d → d ≤ e →
      lineStart.apply { b with dot := d } = .ok { b with dot := s } ∧
        lineEnd.apply { b with dot := d } = .ok { b with dot := e }) ∧
    ∀ n ∈ [l, r, s, e], isBoundary b.content n = true ∧ n ≤ byteLength b.content := by
  obtain ⟨l, hleft, hl, hleft₀, hgreatest, hback⟩ := exists_left h
  obtain ⟨r, hright, hr, hright₀, hleast, hforth⟩ := exists_right h
  obtain ⟨front, line, rest, hline, hstart, hend⟩ := exists_line h
  have hdot := isBoundary_of_valid h
  have hs : isBoundary b.content (byteLength front) = true :=
    isBoundary_iff.2 ⟨front, line ++ rest, by rw [← hline.append, String.append_assoc], rfl⟩
  have he : isBoundary b.content (byteLength (front ++ line)) = true :=
    isBoundary_iff.2 ⟨front ++ line, rest, hline.append, rfl⟩
  have hse : byteLength front ≤ byteLength (front ++ line) := hstart.trans hend
  refine ⟨l, r, byteLength front, byteLength (front ++ line),
    ⟨hleft, hright, lineStart_of_isLine hline hdot hstart hend,
      lineEnd_of_isLine hline hdot hstart hend⟩,
    ⟨hleft₀, hgreatest, hback⟩, ⟨hright₀, hleast, hforth⟩,
    ⟨hline.isGreatest_startsLine hstart hend, lineStart_of_isLine hline hs (Nat.le_refl _) hse⟩,
    ⟨hline.isLeast_endsLine hstart hend, lineEnd_of_isLine hline he hse (Nat.le_refl _)⟩,
    fun n => hline.not_lineFeedAt, fun d hd hsd hde => ?_, fun n hn => ?_⟩
  · exact ⟨lineStart_of_isLine hline hd hsd hde, lineEnd_of_isLine hline hd hsd hde⟩
  · have hboundary : isBoundary b.content n = true := by
      simp only [List.mem_cons, List.not_mem_nil, or_false] at hn
      rcases hn with rfl | rfl | rfl | rfl
      · exact hl
      · exact hr
      · exact hs
      · exact he
    exact ⟨hboundary, le_of_isBoundary hboundary⟩

/-- The dot after an accented letter and before a line feed. -/
theorem movement_laws_accented :
    let b : CodeBuffer := ⟨"aé\nxyz", 3⟩
    b.Valid ∧ ∃ l r s e, left.apply b = .ok { b with dot := l } ∧
      right.apply b = .ok { b with dot := r } ∧ lineStart.apply b = .ok { b with dot := s } ∧
      lineEnd.apply b = .ok { b with dot := e } ∧ (l, r, s, e) = (1, 4, 0, 3) := by
  intro b
  have h : b.Valid := by decide
  obtain ⟨l, r, s, e, ⟨hleft, hright, hstart, hend⟩, -⟩ := movement_laws h
  have hdot {m : Movement} {d d' : Nat} (hd : m.apply b = .ok { b with dot := d })
      (hd' : m.apply ⟨"aé\nxyz", 3⟩ = .ok ⟨"aé\nxyz", d'⟩) : d = d' :=
    congrArg CodeBuffer.dot (Except.ok.inj (hd.symm.trans hd'))
  obtain rfl : l = 1 := hdot hleft (by decide)
  obtain rfl : r = 4 := hdot hright (by decide)
  obtain rfl : s = 0 := hdot hstart (by decide)
  obtain rfl : e = 3 := hdot hend (by decide)
  exact ⟨h, 1, 4, 0, 3, hleft, hright, hstart, hend, rfl⟩

end Movement

end TerminalUI
