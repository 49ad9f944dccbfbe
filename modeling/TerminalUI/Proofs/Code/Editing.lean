import TerminalUI.Code.Movement
import TerminalUI.Proofs.Code.Command
import TerminalUI.Proofs.Text.Lines

/-!
# Editing valid buffers

A valid buffer is a text before the dot and a text after it (`CodeBuffer.valid_iff`). Seen so, an
edit is a change of the two parts: `insert_ofParts`, `backspace_ofParts`, `apply_left`, `apply_right`,
`apply_lineStart` and `apply_lineEnd` for the movements, and `expandSimple_ofParts`,
`expandCommand_ofParts`, `expandSmallWord_ofParts` for the three rules of abbreviations. None of them
is a fault, and each of them gives a valid buffer again.
-/

namespace TerminalUI

namespace CodeBuffer

/-- The buffer with one text before the dot and one after it. -/
def ofParts (before after : String) : CodeBuffer := ⟨before ++ after, byteLength before⟩

@[simp]
theorem content_ofParts (before after : String) :
    (ofParts before after).content = before ++ after := rfl

@[simp]
theorem dot_ofParts (before after : String) : (ofParts before after).dot = byteLength before := rfl

theorem valid_iff {b : CodeBuffer} : b.Valid ↔ ∃ before after, b = ofParts before after := by
  rw [Valid, Option.isSome_iff_exists]
  constructor
  · rintro ⟨⟨before, after⟩, h⟩
    obtain ⟨hcontent, hdot⟩ := cutAt_eq_some_iff.1 h
    exact ⟨before, after, by rw [ofParts, hcontent, hdot]⟩
  · rintro ⟨before, after, rfl⟩
    exact ⟨(before, after), cutAt_append before after⟩

theorem valid_ofParts (before after : String) : (ofParts before after).Valid :=
  valid_iff.2 ⟨before, after, rfl⟩

theorem isBoundary_of_valid {b : CodeBuffer} (h : b.Valid) : isBoundary b.content b.dot = true := by
  obtain ⟨before, after, rfl⟩ := valid_iff.1 h
  exact isBoundary_iff.2 ⟨before, after, rfl, rfl⟩

theorem valid_ofContent (content : String) (dot : Nat) : (ofContent content dot).Valid := by
  obtain ⟨before, after, happend, hlength⟩ :=
    isBoundary_iff.1 (isBoundary_floorBoundary content dot)
  exact valid_iff.2 ⟨before, after, by rw [ofContent, ofParts, happend, hlength]⟩

theorem atEnd_eq_ofParts (content : String) : atEnd content = ofParts content "" := by
  simp [atEnd, ofParts]

theorem valid_atEnd (content : String) : (atEnd content).Valid := by
  rw [atEnd_eq_ofParts]
  exact valid_ofParts content ""

/-! ### Inserting, deleting and moving -/

@[simp]
theorem split_ofParts (before after : String) :
    (ofParts before after).split = .ok (before, after) := by
  simp only [split, content_ofParts, dot_ofParts, cutAt_append]

theorem ofParts_inj {before after before' after' : String} :
    ofParts before after = ofParts before' after' ↔ before = before' ∧ after = after' := by
  constructor
  · intro h
    have hsplit := congrArg split h
    rwa [split_ofParts, split_ofParts, Except.ok.injEq, Prod.mk.injEq] at hsplit
  · rintro ⟨rfl, rfl⟩
    rfl

@[simp]
theorem insert_ofParts (before after text : String) :
    (ofParts before after).insert text = .ok (ofParts (before ++ text) after) := by
  simp only [insert, split_ofParts, bind, Except.bind, pure, Except.pure]
  simp [ofParts]

theorem backspace_ofParts (before after : String) :
    (ofParts before after).backspace =
      .ok (ofParts (String.ofList before.toList.dropLast) after) := by
  simp only [backspace, split_ofParts, bind, Except.bind, pure, Except.pure]
  split
  · rename_i h
    have hnil : before.toList = [] := List.reverse_eq_nil_iff.1 h
    have hbefore : before = "" := String.toList_eq_nil_iff.1 hnil
    rw [hbefore]
    rfl
  · rename_i c rest h
    have hlist : before.toList = rest.reverse ++ [c] := by
      rw [← List.reverse_reverse before.toList, h, List.reverse_cons]
    have hlength : byteLength before = byteLength (String.ofList rest.reverse) + c.utf8Size := by
      rw [← size_toList, hlist, byteLength_ofList]
      simp [Offset.size]
    rw [dot_ofParts, hlist, List.dropLast_concat, hlength, Nat.add_sub_cancel]
    rfl

end CodeBuffer

namespace Movement

open CodeBuffer

variable {s before after before' after' front last first rest : String}

/-- A movement keeps the text, so that it is told by how long the part before the dot is. -/
theorem apply_ofParts_eq (m : Movement) (hcontent : before' ++ after' = before ++ after)
    (hdot : byteLength before' = m.target (byteLength before) before.toList after.toList) :
    m.apply (ofParts before after) = .ok (ofParts before' after') := by
  simp only [apply, split_ofParts, bind, Except.bind, pure, Except.pure]
  rw [ofParts, ofParts, hcontent, hdot]

theorem apply_left (before after : String) (c : Char) :
    left.apply (ofParts (before ++ .singleton c) after) =
      .ok (ofParts before (.singleton c ++ after)) := by
  refine left.apply_ofParts_eq String.append_assoc.symm ?_
  have hlist : (before ++ String.singleton c).toList.reverse = c :: before.toList.reverse := by simp
  rw [target, hlist, byteLength_append, byteLength_singleton]
  exact (Nat.add_sub_cancel ..).symm

theorem apply_left_of_empty (after : String) :
    left.apply (ofParts "" after) = .ok (ofParts "" after) :=
  left.apply_ofParts_eq rfl rfl

theorem apply_right (before after : String) (c : Char) :
    right.apply (ofParts before (.singleton c ++ after)) =
      .ok (ofParts (before ++ .singleton c) after) := by
  refine right.apply_ofParts_eq String.append_assoc ?_
  have hlist : (String.singleton c ++ after).toList = c :: after.toList := by simp
  rw [hlist, byteLength_append, byteLength_singleton]
  rfl

theorem apply_right_of_empty (before : String) :
    right.apply (ofParts before "") = .ok (ofParts before "") :=
  right.apply_ofParts_eq rfl rfl

/-- The bytes in a line are those up to a line feed or the end. -/
theorem bytesInLine_append {line rest : List Char} (hline : '\n' ∉ line)
    (hrest : rest = [] ∨ ∃ cs, rest = '\n' :: cs) :
    bytesInLine (line ++ rest) = Offset.size line := by
  have hchars : ∀ c ∈ line, decide (c ≠ '\n') = true := fun c hc =>
    decide_eq_true fun heq => hline (heq ▸ hc)
  have hstop : rest.takeWhile (· ≠ '\n') = [] := by
    rcases hrest with rfl | ⟨cs, rfl⟩ <;> rfl
  rw [bytesInLine, List.takeWhile_append_of_pos hchars, hstop, List.append_nil]

theorem apply_lineStart (h : IsLine s front (last ++ first) rest) :
    lineStart.apply (ofParts (front ++ last) (first ++ rest)) =
      .ok (ofParts front (last ++ first ++ rest)) := by
  refine lineStart.apply_ofParts_eq ?_ ?_
  · simp only [String.append_assoc]
  · have hline : '\n' ∉ last.toList.reverse := fun hmem => h.noFeed (by simp_all)
    have hfront : front.toList.reverse = [] ∨ ∃ cs, front.toList.reverse = '\n' :: cs := by
      rcases h.opens with rfl | ⟨text, rfl⟩
      · exact .inl rfl
      · exact .inr ⟨text.toList.reverse, by simp⟩
    have hbytes := bytesInLine_append hline hfront
    rw [Offset.size, total_reverse, ← Offset.size, size_toList] at hbytes
    rw [target, String.toList_append, List.reverse_append, hbytes, byteLength_append,
      Nat.add_sub_cancel]

theorem apply_lineEnd (h : IsLine s front (last ++ first) rest) :
    lineEnd.apply (ofParts (front ++ last) (first ++ rest)) =
      .ok (ofParts (front ++ (last ++ first)) rest) := by
  refine lineEnd.apply_ofParts_eq ?_ ?_
  · simp only [String.append_assoc]
  · have hline : '\n' ∉ first.toList := fun hmem => h.noFeed (by simp_all)
    have hrest : rest.toList = [] ∨ ∃ cs, rest.toList = '\n' :: cs := by
      rcases h.closes with rfl | ⟨text, rfl⟩
      · exact .inl rfl
      · exact .inr ⟨text.toList, by simp⟩
    rw [target, String.toList_append, bytesInLine_append hline hrest, size_toList,
      ← String.append_assoc, byteLength_append]

/-- A movement of a valid buffer is no fault, keeps the text and gives a valid buffer. -/
theorem apply_ofParts (m : Movement) (before after : String) :
    ∃ before' after', before' ++ after' = before ++ after ∧
      m.apply (ofParts before after) = .ok (ofParts before' after') := by
  cases m with
  | left =>
    rcases eq_empty_or_append_singleton before with rfl | ⟨front, c, rfl⟩
    · exact ⟨"", after, rfl, apply_left_of_empty after⟩
    · refine ⟨front, String.singleton c ++ after, ?_, apply_left front after c⟩
      rw [String.append_assoc]
  | right =>
    rcases eq_empty_or_singleton_append after with rfl | ⟨c, rest, rfl⟩
    · exact ⟨before, "", rfl, apply_right_of_empty before⟩
    · refine ⟨before ++ String.singleton c, rest, ?_, apply_right before rest c⟩
      rw [String.append_assoc]
  | lineStart =>
    obtain ⟨front, last, first, rest, rfl, rfl, hline⟩ := exists_isLine before after
    exact ⟨_, _, by simp only [String.append_assoc], apply_lineStart hline⟩
  | lineEnd =>
    obtain ⟨front, last, first, rest, rfl, rfl, hline⟩ := exists_isLine before after
    exact ⟨_, _, by simp only [String.append_assoc], apply_lineEnd hline⟩

end Movement

namespace Abbreviations

open CodeBuffer

theorem mem_of_foldl_longer {entries : List (String × String)}
    {best : Option (String × String)} {e : String × String}
    (h : entries.foldl longer best = some e) : best = some e ∨ e ∈ entries := by
  induction entries generalizing best with
  | nil => exact .inl h
  | cons first rest ih =>
    rcases ih h with hfirst | hrest
    · cases best with
      | none =>
        simp only [longer, Option.some.injEq] at hfirst
        exact .inr (hfirst ▸ List.mem_cons_self)
      | some b =>
        simp only [longer] at hfirst
        split at hfirst
        · exact .inl hfirst
        · simp only [Option.some.injEq] at hfirst
          exact .inr (hfirst ▸ List.mem_cons_self)
    · exact .inr (List.mem_cons_of_mem _ hrest)

/-- The chosen entry is one of the table that is accepted. -/
theorem of_longest?_eq_some {t : Abbreviations} {accept : String → Bool}
    {short full : String} (h : t.longest? accept = some (short, full)) :
    (short, full) ∈ t.entries ∧ short ≠ "" ∧ accept short = true := by
  rcases mem_of_foldl_longer h with h | h
  · cases h
  · simpa using List.mem_filter.1 h

/-- A simple expansion of a valid buffer is no fault, and replaces an abbreviation before the dot
that the streak ends with. -/
theorem expandSimple_ofParts (t : Abbreviations) (before after streak : String) :
    ∃ result, t.expandSimple (ofParts before after) streak = .ok result ∧
      ∀ b, result = some b → ∃ short full rest, (short, full) ∈ t.entries ∧
        endsWith streak short = true ∧ rest ++ short = before ∧
        b = ofParts (rest ++ full) after := by
  unfold expandSimple
  split
  · exact ⟨none, rfl, nofun⟩
  · rename_i short full h
    obtain ⟨hmem, -, hends⟩ := of_longest?_eq_some h
    simp only [split_ofParts, bind, Except.bind, pure, Except.pure]
    split
    · exact ⟨none, rfl, nofun⟩
    · rename_i rest hrest
      refine ⟨_, rfl, ?_⟩
      rintro b ⟨⟩
      have hbefore := beforeSuffix?_eq_some_iff.1 hrest
      rw [← String.toList_append, String.toList_inj] at hbefore
      exact ⟨short, full, rest, hmem, hends, hbefore, by simp [ofParts]⟩

/-- A small-word expansion of a valid buffer is no fault, and replaces an abbreviation before the
last character, both of which the streak ends with. -/
theorem expandSmallWord_ofParts (t : Abbreviations) (before after streak : String)
    (trigger : Char) :
    ∃ result, t.expandSmallWord (ofParts before after) streak trigger = .ok result ∧
      ∀ b, result = some b → ∃ short full rest, (short, full) ∈ t.entries ∧
        endsWith streak (short.push trigger) = true ∧ (rest ++ short).push trigger = before ∧
        b = ofParts ((rest ++ full).push trigger) after := by
  unfold expandSmallWord
  split
  · exact ⟨none, rfl, nofun⟩
  · rename_i typed htyped
    simp only [split_ofParts, bind, Except.bind, pure, Except.pure]
    split
    · exact ⟨none, rfl, nofun⟩
    · rename_i beforeTrigger htrigger
      split
      · exact ⟨none, rfl, nofun⟩
      · rename_i short full h
        obtain ⟨hmem, -, haccept⟩ := of_longest?_eq_some h
        split
        · exact ⟨none, rfl, nofun⟩
        · rename_i rest hrest
          refine ⟨_, rfl, ?_⟩
          rintro b ⟨⟩
          -- three ends were stripped: from the streak, and twice from the text before the dot
          have hbefore := beforeSuffix?_eq_some_iff.1 htrigger
          have hrest := beforeSuffix?_eq_some_iff.1 hrest
          have hstreak := beforeSuffix?_eq_some_iff.1 htyped
          rw [← String.toList_append, String.toList_inj] at hbefore hrest
          subst hrest hbefore
          refine ⟨short, full, rest, hmem, ?_, String.push_eq_append _, ?_⟩
          · simp only [isSmallWord, Bool.and_eq_true] at haccept
            obtain ⟨front, hfront⟩ := endsWith_iff.1 haccept.1
            refine endsWith_iff.2 ⟨front, ?_⟩
            rw [← hstreak, ← hfront]
            simp
          · simp only [byteLength_append, byteLength_singleton, ofParts, String.push_eq_append,
              CodeBuffer.mk.injEq, true_and]
            omega

/-- A command expansion of a valid buffer replaces a word before the last character, where the
streak ends with that word and the character that was typed. -/
theorem expandCommand_ofParts {t : Abbreviations} {before after streak : String} {trigger : Char}
    {b : CodeBuffer} (h : t.expandCommand (ofParts before after) streak trigger = some b) :
    ∃ short full rest blank, (short, full) ∈ t.entries ∧
      endsWith streak (short.push trigger) = true ∧ (rest ++ short).push blank = before ∧
      b = ofParts ((rest ++ full).push blank) after := by
  obtain ⟨hdot, -, rest, word, blank, full, hword, hstreak, hentry, rfl⟩ :=
    exists_of_expandCommand h
  obtain ⟨front, back, hentries, -⟩ := hentry
  have hafter : after = "" := by
    apply String.utf8ByteSize_eq_zero_iff.1
    rw [dot_ofParts, content_ofParts, byteLength_append] at hdot
    exact Nat.left_eq_add.1 hdot
  subst hafter
  refine ⟨word, full, rest, blank, by simp [hentries], endsWith_push_iff.2 hstreak, ?_,
    atEnd_eq_ofParts _⟩
  rw [← hword.content_eq, content_ofParts, String.append_empty]

end Abbreviations

end TerminalUI
