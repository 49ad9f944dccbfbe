import TerminalUI.Proofs.Code.Editing
import TerminalUI.Proofs.CodeArea.Entries

/-!
# Typing into a code area

What the layers below pastes do with a key. `Typing` lists it: the key deletes a character, inserts
one, inserts one and expands an abbreviation that the streak ends with, or is not used. The handler
does one of these and is no fault, whatever the entries hold, as long as the buffer is valid
(`exists_leads_typingHandler`).
-/

namespace TerminalUI

namespace CodeArea

open CodeBuffer

/-- The streak as far as it stands before the dot: all of it, or nothing. -/
def State.liveStreak (s : State) (before : String) : String :=
  if endsWith before s.streak then s.streak else ""

/-- The buffer after the expansion of an abbreviation of some table, with the text before the dot,
the text after it, the streak, and the character typed last, which is the end of both texts. -/
inductive Expands (s : State) (before after streak : String) (c : Char) : CodeBuffer → Prop where
  | simple {short full rest : String} (hmem : (short, full) ∈ s.simple.entries)
    (hstreak : endsWith streak short = true) (hbefore : rest ++ short = before) :
    Expands s before after streak c (ofParts (rest ++ full) after)
  | command {short full rest : String} (hmem : (short, full) ∈ s.command.entries)
    (hstreak : endsWith streak (short.push c) = true)
    (hbefore : (rest ++ short).push c = before) :
    Expands s before after streak c (ofParts ((rest ++ full).push c) after)
  | smallWord {short full rest : String} (hmem : (short, full) ∈ s.smallWord.entries)
    (hstreak : endsWith streak (short.push c) = true)
    (hbefore : (rest ++ short).push c = before) :
    Expands s before after streak c (ofParts ((rest ++ full).push c) after)

/-- What a key does when no paste is in progress. -/
inductive Typing (s : State) (k : Key) : Action → State → Prop where
  | deleted {before after : String} (hkey : deletes k = true)
    (hbuffer : s.buffer = ofParts before after) :
    Typing s k .consumed
      { s with buffer := ofParts (.ofList before.toList.dropLast) after, streak := "" }
  | typed {c : Char} {before after : String} (hkey : k.literal? = some c)
    (hinsert : isInsertable c = true) (hbuffer : s.buffer = ofParts before after) :
    Typing s k .consumed
      { s with buffer := ofParts (before.push c) after, streak := (s.liveStreak before).push c }
  | expanded {c : Char} {before after : String} {b : CodeBuffer} (hkey : k.literal? = some c)
    (hinsert : isInsertable c = true) (hbuffer : s.buffer = ofParts before after)
    (hexpands : Expands s (before.push c) after ((s.liveStreak before).push c) c b) :
    Typing s k .consumed { s with buffer := b, streak := "" }
  | unused (hkey : deletes k = false) (hinsert : k.literal?.any isInsertable = false) :
    Typing s k .unused { s with streak := "" }

variable {hook : Option Hook} {level : Path} {m : Tree} {s : State} {k : Key} {c : Char}
  {b : CodeBuffer} {before after : String}

/-! ### The core -/

theorem leads_edit (h : Holds m s) {f : CodeBuffer → Except Fault CodeBuffer}
    (hf : f s.buffer = .ok b) :
    Program.Leads hook level (edit (buffer level) f) m () (m.insert bufferName (.buffer b)) :=
  .bind (Var.leads_get h.buffer) (.bind (.ofExcept hf) (Var.leads_set b))

theorem literal?_of_deletes (hkey : deletes k = true) : k.literal? = none := by
  simp only [deletes, Key.isBare, Bool.or_eq_true, decide_eq_true_eq] at hkey
  rcases hkey with (rfl | rfl) | rfl <;> decide

theorem leads_coreHandler_of_deletes (h : Holds m s) (hkey : deletes k = true)
    (hbuffer : s.buffer = ofParts before after) :
    Program.Leads hook level (coreHandler (buffer level) (.key k)) m .consumed
      (m.insert bufferName (.buffer (ofParts (.ofList before.toList.dropLast) after))) := by
  simp only [coreHandler, Event.key?, if_pos hkey]
  refine .bind (leads_edit h ?_) (.pure _)
  rw [hbuffer, backspace_ofParts]

theorem leads_coreHandler_of_literal (h : Holds m s) (hkey : k.literal? = some c)
    (hinsert : isInsertable c = true) (hbuffer : s.buffer = ofParts before after) :
    Program.Leads hook level (coreHandler (buffer level) (.key k)) m .consumed
      (m.insert bufferName (.buffer (ofParts (before.push c) after))) := by
  have hdeletes : ¬ deletes k = true := by
    intro hdeletes
    rw [literal?_of_deletes hdeletes] at hkey
    cases hkey
  simp only [coreHandler, Event.key?, if_neg hdeletes, hkey, if_pos hinsert]
  refine .bind (leads_edit h ?_) (.pure _)
  rw [hbuffer, insert_ofParts, String.push_eq_append]

theorem leads_coreHandler_of_unused (hkey : deletes k = false)
    (hinsert : k.literal?.any isInsertable = false) :
    Program.Leads hook level (coreHandler (buffer level) (.key k)) m .unused m := by
  simp only [coreHandler, Event.key?, hkey, Bool.false_eq_true, if_false]
  cases hliteral : k.literal? with
  | none => exact .pure _
  | some c =>
    rw [hliteral, Option.any_some] at hinsert
    simp only [hinsert, Bool.false_eq_true, if_false]
    exact .pure _

/-! ### Abbreviations -/

theorem exists_leads_expansion (h : Holds m { s with buffer := b })
    (before after streak : String) (c : Char) :
    ∃ result, Program.Leads hook level
        (expansion (tables level) (ofParts (before.push c) after) streak c) m result m ∧
      ∀ b, result = some b → Expands s (before.push c) after streak c b := by
  obtain ⟨simple, hsimple, hofSimple⟩ :=
    s.simple.expandSimple_ofParts (before.push c) after streak
  obtain ⟨smallWord, hsmallWord, hofSmallWord⟩ :=
    s.smallWord.expandSmallWord_ofParts (before.push c) after streak c
  have hget : Program.Leads hook level (tables level).simple.get m s.simple m :=
    Var.leads_get h.simple
  -- the tables are tried one after the other, and later ones are not even read
  cases simple with
  | some b =>
    refine ⟨some b, .bind hget (.bind (.ofExcept hsimple) (.pure _)), ?_⟩
    rintro _ ⟨⟩
    obtain ⟨short, full, rest, hmem, hstreak, hbefore, rfl⟩ := hofSimple b rfl
    exact .simple hmem hstreak hbefore
  | none =>
    cases hcommand : s.command.expandCommand (ofParts (before.push c) after) streak c with
    | some b =>
      refine ⟨some b, .bind hget (.bind (.ofExcept hsimple)
        (.bind (Var.leads_get h.command) ?_)), ?_⟩
      · rw [hcommand]
        exact .pure _
      · rintro _ ⟨⟩
        obtain ⟨short, full, rest, blank, hmem, hstreak, hbefore, rfl⟩ :=
          Abbreviations.expandCommand_ofParts hcommand
        obtain ⟨-, rfl⟩ := String.push_inj.1 hbefore
        exact .command hmem hstreak hbefore
    | none =>
      refine ⟨smallWord, .bind hget (.bind (.ofExcept hsimple)
        (.bind (Var.leads_get h.command) ?_)), ?_⟩
      · rw [hcommand]
        exact .bind (Var.leads_get h.smallWord) (.ofExcept hsmallWord)
      · intro b hb
        obtain ⟨short, full, rest, hmem, hstreak, hbefore, rfl⟩ := hofSmallWord b hb
        exact .smallWord hmem hstreak hbefore

theorem exists_leads_continueStreak
    (h : Holds m { s with buffer := ofParts (before.push c) after }) :
    ∃ b streak m', Program.Leads hook level
        (continueStreak (buffer level) (tables level) (ofParts before after)
          (ofParts (before.push c) after) c) m () m' ∧
      Holds m' { s with buffer := b, streak := streak } ∧ Keeps m m' ∧
      (b = ofParts (before.push c) after ∧ streak = (s.liveStreak before).push c ∨
        Expands s (before.push c) after ((s.liveStreak before).push c) c b ∧ streak = "") := by
  obtain ⟨result, hexpansion, hexpands⟩ :=
    exists_leads_expansion h before after ((s.liveStreak before).push c) c
  have hsplit : (ofParts before after).split = .ok (before, after) := split_ofParts before after
  cases result with
  | some b =>
    refine ⟨b, "", _, ?_, (h.setBuffer b).setStreak "",
      (keeps_setBuffer m b).trans (keeps_setStreak _ ""), .inr ⟨hexpands b rfl, rfl⟩⟩
    refine .bind (Var.leads_get h.streak) (.bind (.ofExcept hsplit) ?_)
    exact .bind hexpansion (.bind (Var.leads_set b) (Var.leads_set ""))
  | none =>
    refine ⟨_, _, _, ?_, h.setStreak _, keeps_setStreak m _, .inl ⟨rfl, rfl⟩⟩
    refine .bind (Var.leads_get h.streak) (.bind (.ofExcept hsplit) ?_)
    exact .bind hexpansion (Var.leads_set _)

theorem leads_inserted?_of_literal (h : Holds m { s with buffer := ofParts (before.push c) after })
    (hkey : k.literal? = some c) :
    Program.Leads hook level (inserted? (buffer level) (ofParts before after) k .consumed) m
      (some (c, ofParts (before.push c) after)) m := by
  have hinsert : (ofParts before after).insert (String.singleton c) =
      .ok (ofParts (before.push c) after) := by
    rw [insert_ofParts, String.push_eq_append]
  simp only [inserted?, hkey, if_true]
  refine .bind (.ofExcept hinsert) (.bind (Var.leads_get h.buffer) ?_)
  simp only [if_true]
  exact .pure _

theorem leads_inserted?_of_none (b : CodeBuffer) {action : Action}
    (h : k.literal? = none ∨ action = .unused) :
    Program.Leads hook level (inserted? (buffer level) b k action) m none m := by
  unfold inserted?
  cases hkey : k.literal? with
  | none => exact .pure _
  | some c =>
    rw [hkey] at h
    rcases h with h | rfl
    · cases h
    · exact .pure _

/-- **Typing is safe.** The layers below pastes do one of the listed things with a key. -/
theorem exists_leads_typingHandler (h : Holds m s) (hvalid : s.buffer.Valid) (k : Key) :
    ∃ action s' m', Program.Leads hook level (typingHandler level (.key k)) m action m' ∧
      Typing s k action s' ∧ Holds m' s' ∧ Keeps m m' := by
  obtain ⟨before, after, hbuffer⟩ := valid_iff.1 hvalid
  have hget : Program.Leads hook level (buffer level).get m (ofParts before after) m :=
    hbuffer ▸ Var.leads_get h.buffer
  by_cases hdeletes : deletes k = true
  · have hdeleted := (h.setBuffer (ofParts (.ofList before.toList.dropLast) after)).setStreak ""
    refine ⟨_, _, _, ?_, .deleted hdeletes hbuffer, hdeleted,
      (keeps_setBuffer m _).trans (keeps_setStreak _ "")⟩
    refine .bind hget (.bind (leads_coreHandler_of_deletes h hdeletes hbuffer) ?_)
    refine .bind (leads_inserted?_of_none _ (.inl (literal?_of_deletes hdeletes))) ?_
    exact .bind (Var.leads_set "") (.pure _)
  · cases hinsert : k.literal?.any isInsertable with
    | false =>
      have hdeletes : deletes k = false := by simpa using hdeletes
      refine ⟨_, _, _, ?_, .unused hdeletes hinsert, h.setStreak "",
        keeps_setStreak m ""⟩
      refine .bind hget (.bind (leads_coreHandler_of_unused hdeletes hinsert) ?_)
      refine .bind (leads_inserted?_of_none _ (.inr rfl)) ?_
      exact .bind (Var.leads_set "") (.pure _)
    | true =>
      obtain ⟨c, hkey, hc⟩ := (Option.any_eq_true _ _).1 hinsert
      have htyped := h.setBuffer (ofParts (before.push c) after)
      obtain ⟨b, streak, m', hcontinue, hholds, hkeeps, hresult⟩ :=
        exists_leads_continueStreak htyped
      have hleads : Program.Leads hook level (typingHandler level (.key k)) m .consumed m' :=
        .bind hget (.bind (leads_coreHandler_of_literal h hkey hc hbuffer)
          (.bind (leads_inserted?_of_literal htyped hkey) (.bind hcontinue (.pure _))))
      refine ⟨_, _, m', hleads, ?_, hholds, (keeps_setBuffer m _).trans hkeeps⟩
      rcases hresult with ⟨rfl, rfl⟩ | ⟨hexpands, rfl⟩
      · exact .typed hkey hc hbuffer
      · exact .expanded hkey hc hbuffer hexpands

end CodeArea

end TerminalUI
