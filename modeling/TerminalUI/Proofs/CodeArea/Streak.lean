import TerminalUI.Proofs.CodeArea.Run

/-!
# The streak of a code area

The streak is meant to be what was typed last, one key after another, with nothing else in between,
and to stand right before the dot. `Seen` keeps, from the outside, what was really typed so, and
`Intact` says that the streak is an end of it and of the text before the dot. Since the next key is
added to the streak, nothing else may have been consumed after it either. Keys keep this; but a
paste leaves the streak as it is. So the streak is intact throughout a run exactly if every event of
a paste comes while it is empty (`streak_intact_iff`), and then abbreviations are only ever made of
characters that were typed without a break. Otherwise they may be completed across a paste
(`paste_completes_abbreviation`).
-/

namespace TerminalUI

theorem endsWith_empty (s : String) : endsWith s "" = true := endsWith_iff.2 ⟨s.toList, by simp⟩

theorem eq_empty_of_endsWith {tail : String} (h : endsWith "" tail = true) : tail = "" := by
  obtain ⟨before, hbefore⟩ := endsWith_iff.1 h
  have hnil : tail.toList = [] := (List.append_eq_nil_iff.1 hbefore).2
  exact String.toList_eq_nil_iff.1 hnil

theorem endsWith_push {s tail : String} (h : endsWith s tail = true) (c : Char) :
    endsWith (s.push c) (tail.push c) = true := by
  obtain ⟨before, hbefore⟩ := endsWith_iff.1 h
  refine endsWith_iff.2 ⟨before, ?_⟩
  rw [String.toList_push, String.toList_push, ← hbefore, List.append_assoc]

theorem endsWith_trans {s tail end' : String} (h : endsWith s tail = true)
    (h' : endsWith tail end' = true) : endsWith s end' = true := by
  obtain ⟨before, hbefore⟩ := endsWith_iff.1 h
  obtain ⟨between, hbetween⟩ := endsWith_iff.1 h'
  refine endsWith_iff.2 ⟨before ++ between, ?_⟩
  rw [List.append_assoc, hbetween, hbefore]

namespace CodeArea

open CodeBuffer

/-- What is seen of a code area from the outside: whether a paste is in progress, and the characters
that were typed last, with no other event consumed in between. -/
structure Seen where
  pasting : Bool
  unbroken : String

namespace Seen

/-- What is seen after one more event, with what was reported for it. -/
def next (t : Seen) (event : Event) (action : Action) : Seen :=
  match event with
  | .resize .. => t
  | .paste starts => ⟨starts, ""⟩
  | .key k =>
    if t.pasting then { t with unbroken := "" }
    else if action = .consumed then
      match k.literal? with
      | some c => { t with unbroken := t.unbroken.push c }
      | none => { t with unbroken := "" }
    else t

/-- Is the event one of a paste? -/
def isPaste (t : Seen) : Event → Bool
  | .resize .. => false
  | .paste _ => true
  | .key _ => t.pasting

end Seen

/-- The streak is an end of the text before the dot and of what was typed without a break. -/
def Intact (s : State) (t : Seen) : Prop :=
  ∃ before after, s.buffer = ofParts before after ∧ endsWith before s.streak = true ∧
    endsWith t.unbroken s.streak = true

variable {keymap : Keymap} {s s' : State} {t : Seen} {event : Event} {action : Action}
  {w : Embedded}

/-! ### One step -/

theorem intact_of_empty (hvalid : s.buffer.Valid) (hstreak : s.streak = "") (t : Seen) :
    Intact s t := by
  obtain ⟨before, after, hbuffer⟩ := valid_iff.1 hvalid
  exact ⟨before, after, hbuffer, hstreak ▸ endsWith_empty before, hstreak ▸ endsWith_empty _⟩

theorem Intact.of_streak_eq_empty (h : Intact s' t) (ht : t.unbroken = "") : s'.streak = "" := by
  obtain ⟨-, -, -, -, hunbroken⟩ := h
  rw [ht] at hunbroken
  exact eq_empty_of_endsWith hunbroken

theorem Intact.endsWith_liveStreak (h : Intact s t) (before : String) :
    endsWith before (s.liveStreak before) = true ∧
      endsWith t.unbroken (s.liveStreak before) = true := by
  obtain ⟨-, -, -, -, hunbroken⟩ := h
  unfold State.liveStreak
  split
  · exact ⟨by assumption, hunbroken⟩
  · exact ⟨endsWith_empty before, endsWith_empty _⟩

theorem Seen.pasting_next_key (t : Seen) (k : Key) (action : Action) :
    (t.next (.key k) action).pasting = t.pasting := by
  unfold next
  dsimp only
  split
  · rfl
  · split
    · split <;> rfl
    · rfl

theorem Typing.pasting_eq {k : Key} (h : Typing s k action s') : s'.pasting = s.pasting := by
  cases h <;> rfl

theorem Handled.pasting_next (h : Handled s event action s') (ht : t.pasting = s.pasting) :
    (t.next event action).pasting = s'.pasting := by
  cases h with
  | resized => exact ht
  | pasteStarted => rfl
  | pasteEnded => rfl
  | collected k => exact (t.pasting_next_key k _).trans ht
  | typing _ htyping => exact (t.pasting_next_key _ _).trans (ht.trans htyping.pasting_eq.symm)

/-- Submitting and moving are done by keys that the layers below pastes have no use for. -/
theorem exists_key_of_submits (h : keymap.submits event = true) : ∃ k, event = .key k := by
  cases event with
  | key k => exact ⟨k, rfl⟩
  | _ => simp [Keymap.submits, Event.key?] at h

theorem Handled.of_movement {movement : Movement} (h : Handled s event .unused s')
    (hmovement : keymap.movement? event = some movement) :
    ∃ k, event = .key k ∧ Movement.ofKey? k = some movement ∧ s.pasting = false ∧
      s' = { s with streak := "" } := by
  unfold Keymap.movement? at hmovement
  split at hmovement
  · cases hmovement
  · cases h with
    | resized => cases hmovement
    | typing hpasting htyping =>
      cases htyping
      exact ⟨_, rfl, hmovement, hpasting, rfl⟩

theorem Step.pasting_next (h : Step keymap s event action s') (ht : t.pasting = s.pasting) :
    (t.next event action).pasting = s'.pasting := by
  cases h with
  | submitted hsubmits =>
    obtain ⟨k, rfl⟩ := exists_key_of_submits hsubmits
    exact (t.pasting_next_key k _).trans ht
  | moved _ hhandled hmovement =>
    obtain ⟨k, rfl, -, -, rfl⟩ := hhandled.of_movement hmovement
    exact (t.pasting_next_key k _).trans ht
  | handled _ _ hhandled => exact hhandled.pasting_next ht

/-- Keys that are no part of a paste keep the streak intact. -/
theorem Typing.intact {k : Key} (h : Typing s k action s') (ht : t.pasting = false)
    (hvalid : s.buffer.Valid) (hintact : Intact s t) : Intact s' (t.next (.key k) action) := by
  have hvalid' := h.valid hvalid
  cases h with
  | deleted => exact intact_of_empty hvalid' rfl _
  | expanded => exact intact_of_empty hvalid' rfl _
  | unused => exact intact_of_empty hvalid' rfl _
  | typed hkey =>
    obtain ⟨hbefore, hunbroken⟩ := hintact.endsWith_liveStreak _
    refine ⟨_, _, rfl, endsWith_push hbefore _, ?_⟩
    simp only [Seen.next, ht, Bool.false_eq_true, if_false, if_true, hkey]
    exact endsWith_push hunbroken _

theorem intact_iff_of_unbroken (hvalid : s'.buffer.Valid) (hstreak : s'.streak = s.streak)
    (ht : t.unbroken = "") : Intact s' t ↔ s.streak = "" := by
  rw [← hstreak]
  exact ⟨fun h => h.of_streak_eq_empty ht, fun h => intact_of_empty hvalid h t⟩

/-- **What keeps the streak intact**: all events but those of a paste, and those if it is empty. -/
theorem Step.intact_iff (h : Step keymap s event action s') (ht : t.pasting = s.pasting)
    (hvalid : s.buffer.Valid) (hintact : Intact s t) :
    Intact s' (t.next event action) ↔ (t.isPaste event = true → s.streak = "") := by
  have hvalid' := h.valid hvalid
  cases h with
  | submitted hsubmits hpasting =>
    -- nothing was consumed, so nothing is seen
    obtain ⟨k, rfl⟩ := exists_key_of_submits hsubmits
    have hidle : t.pasting = false := ht.trans hpasting
    simp only [Seen.next, Seen.isPaste, hidle, Bool.false_eq_true, if_false, reduceCtorEq,
      false_implies, iff_true]
    exact hintact
  | moved _ hhandled hmovement =>
    obtain ⟨k, rfl, -, hpasting, rfl⟩ := hhandled.of_movement hmovement
    have hidle : t.pasting = false := ht.trans hpasting
    simp only [Seen.isPaste, hidle, Bool.false_eq_true, false_implies, iff_true]
    exact intact_of_empty hvalid' rfl _
  | handled _ _ hhandled =>
    cases hhandled with
    | resized =>
      simp only [Seen.next, Seen.isPaste, Bool.false_eq_true, false_implies, iff_true]
      exact hintact
    | pasteStarted =>
      simp only [Seen.isPaste, true_implies]
      exact intact_iff_of_unbroken hvalid' rfl rfl
    | pasteEnded =>
      -- whatever was inserted, the streak has not changed
      simp only [Seen.isPaste, true_implies]
      exact intact_iff_of_unbroken hvalid' rfl rfl
    | collected k hpasting =>
      have hbusy : t.pasting = true := ht.trans hpasting
      simp only [Seen.isPaste, hbusy, true_implies]
      refine intact_iff_of_unbroken hvalid' rfl ?_
      simp only [Seen.next, hbusy, if_true]
    | typing hpasting htyping =>
      have hidle : t.pasting = false := ht.trans hpasting
      simp only [Seen.isPaste, hidle, Bool.false_eq_true, false_implies, iff_true]
      exact htyping.intact hidle hvalid hintact

/-! ### Expansions -/

theorem literal?_of_ofKey? {k : Key} {movement : Movement}
    (h : Movement.ofKey? k = some movement) : k.literal? = none := by
  have hkey : k.isBare .left ∨ k.isBare .right ∨ k.isBare .home ∨ k.isBare .end := by
    unfold Movement.ofKey? at h
    split at h
    · exact .inl (by assumption)
    · split at h
      · exact .inr (.inl (by assumption))
      · split at h
        · exact .inr (.inr (.inl (by assumption)))
        · split at h
          · exact .inr (.inr (.inr (by assumption)))
          · cases h
  simp only [Key.isBare, decide_eq_true_eq] at hkey
  rcases hkey with rfl | rfl | rfl | rfl <;> rfl

/-- The second buffer is the first one with an abbreviation of a table replaced, and what was typed
without a break ends with the abbreviation, or with it and the character after it. -/
def Replaces (table : Abbreviations) (unbroken : String) (plain b : CodeBuffer) : Prop :=
  ∃ short full rest tail after, (short, full) ∈ table.entries ∧
    plain = ofParts (rest ++ short ++ tail) after ∧ b = ofParts (rest ++ full ++ tail) after ∧
    endsWith unbroken (short ++ tail) = true

theorem replaces_before_char {table : Abbreviations} {unbroken short full rest : String} {c : Char}
    (after : String) (hmem : (short, full) ∈ table.entries)
    (hunbroken : endsWith unbroken (short.push c) = true) :
    Replaces table unbroken (ofParts ((rest ++ short).push c) after)
      (ofParts ((rest ++ full).push c) after) := by
  simp only [String.push_eq_append] at hunbroken ⊢
  exact ⟨short, full, rest, String.singleton c, after, hmem, rfl, rfl, hunbroken⟩

theorem Expands.replaces {before after streak unbroken : String} {c : Char} {b : CodeBuffer}
    (h : Expands s before after streak c b) (hunbroken : endsWith unbroken streak = true) :
    ∃ table ∈ [s.simple, s.command, s.smallWord],
      Replaces table unbroken (ofParts before after) b := by
  cases h with
  | @simple short full rest hmem hstreak hbefore =>
    subst hbefore
    refine ⟨s.simple, by simp, short, full, rest, "", after, hmem, ?_, ?_, ?_⟩
    · rw [String.append_empty]
    · rw [String.append_empty]
    · rw [String.append_empty]
      exact endsWith_trans hunbroken hstreak
  | command hmem hstreak hbefore =>
    subst hbefore
    exact ⟨s.command, by simp, replaces_before_char after hmem (endsWith_trans hunbroken hstreak)⟩
  | smallWord hmem hstreak hbefore =>
    subst hbefore
    exact ⟨s.smallWord, by simp,
      replaces_before_char after hmem (endsWith_trans hunbroken hstreak)⟩

/-- A key that stands for a character only inserts it, or replaces an abbreviation that was typed
without a break. -/
theorem Step.inserts_or_replaces {k : Key} {c : Char} (h : Step keymap s (.key k) .consumed s')
    (ht : t.pasting = s.pasting) (hidle : t.pasting = false) (hkey : k.literal? = some c)
    (hintact : Intact s t) :
    ∃ plain, s.buffer.insert (String.singleton c) = .ok plain ∧
      (s'.buffer = plain ∨ ∃ table ∈ [s.simple, s.command, s.smallWord],
        Replaces table (t.next (.key k) .consumed).unbroken plain s'.buffer) := by
  have hinsert {before after : String} (hbuffer : s.buffer = ofParts before after) :
      s.buffer.insert (String.singleton c) = .ok (ofParts (before.push c) after) := by
    rw [hbuffer, insert_ofParts, String.push_eq_append]
  have hunbroken : (t.next (.key k) .consumed).unbroken = t.unbroken.push c := by
    simp only [Seen.next, hidle, Bool.false_eq_true, if_false, if_true, hkey]
  cases h with
  | moved _ hhandled hmovement =>
    obtain ⟨_, ⟨⟩, hmovement, -, -⟩ := hhandled.of_movement hmovement
    rw [literal?_of_ofKey? hmovement] at hkey
    cases hkey
  | handled _ _ hhandled =>
    cases hhandled with
    | collected _ hpasting => simp [ht, hpasting] at hidle
    | typing _ htyping =>
      cases htyping with
      | deleted hdeletes =>
        rw [literal?_of_deletes hdeletes] at hkey
        cases hkey
      | typed hliteral _ hbuffer =>
        obtain rfl : _ = c := Option.some.inj (hliteral.symm.trans hkey)
        exact ⟨_, hinsert hbuffer, .inl rfl⟩
      | expanded hliteral _ hbuffer hexpands =>
        obtain rfl : _ = c := Option.some.inj (hliteral.symm.trans hkey)
        refine ⟨_, hinsert hbuffer, .inr (hexpands.replaces ?_)⟩
        rw [hunbroken]
        exact endsWith_push (hintact.endsWith_liveStreak _).2 _

/-! ### Runs -/

/-- What an embedded code area has become over some events, and what was seen of it. -/
inductive History (w₀ : Embedded) (t₀ : Seen) : List Event → Embedded → Seen → Prop where
  | start : History w₀ t₀ [] w₀ t₀
  | dispatched {past : List Event} {w w' : Embedded} {t : Seen} {event : Event} {action : Action}
    (hpast : History w₀ t₀ past w t) (hdispatch : w.dispatch event = .ok (action, w')) :
    History w₀ t₀ (past ++ [event]) w' (t.next event action)

/-- The streak stands right before the dot and was typed without a break. -/
def StreakIntact (w : Embedded) (t : Seen) : Prop :=
  ∃ b streak before after, w.tree.get? bufferName = some (.buffer b) ∧
    w.tree.get? streakName = some (.string streak) ∧ b.split = .ok (before, after) ∧
    endsWith before streak = true ∧ endsWith t.unbroken streak = true

/-- A character is only inserted, or an abbreviation of a table is replaced with which, or with
which and the character after it, what was typed without a break ends. -/
def InsertsOrReplaces (w : Embedded) (c : Char) (unbroken : String) (w' : Embedded) : Prop :=
  ∃ b plain b', w.tree.get? bufferName = some (.buffer b) ∧
    b.insert (String.singleton c) = .ok plain ∧ w'.tree.get? bufferName = some (.buffer b') ∧
    (b' = plain ∨ ∃ name ∈ [simpleName, commandName, smallWordName], ∃ table,
      w.tree.get? name = some (.abbreviations table) ∧ Replaces table unbroken plain b')

/-- The streak is intact after every event. -/
def IntactThroughout (w₀ : Embedded) (t₀ : Seen) (events : List Event) : Prop :=
  ∀ past w t, past <+: events → History w₀ t₀ past w t → StreakIntact w t

/-- Every event of a paste comes while the streak is empty. -/
def PastesBetweenStreaks (w₀ : Embedded) (t₀ : Seen) (events : List Event) : Prop :=
  ∀ past event w t, past ++ [event] <+: events → History w₀ t₀ past w t →
    t.isPaste event = true → w.tree.get? streakName = some (.string "")

/-- Every abbreviation that a key expands was typed without a break. -/
def ExpandsUnbroken (w₀ : Embedded) (t₀ : Seen) (events : List Event) : Prop :=
  ∀ past k c w t w', past ++ [.key k] <+: events → History w₀ t₀ past w t →
    t.pasting = false → k.literal? = some c → w.dispatch (.key k) = .ok (.consumed, w') →
    InsertsOrReplaces w c (t.next (.key k) .consumed).unbroken w'

theorem Live.streakIntact_iff (h : Live keymap w s) : StreakIntact w t ↔ Intact s t := by
  constructor
  · rintro ⟨b, streak, before, after, hbuffer, hstreak, hsplit, hbefore, hunbroken⟩
    obtain rfl : b = s.buffer := by
      have hentry := hbuffer.symm.trans h.holds.buffer
      simpa using hentry
    obtain rfl : streak = s.streak := by
      have hentry := hstreak.symm.trans h.holds.streak
      simpa using hentry
    obtain ⟨front, back, hparts⟩ := valid_iff.1 h.valid
    rw [hparts, split_ofParts, Except.ok.injEq, Prod.mk.injEq] at hsplit
    obtain ⟨rfl, rfl⟩ := hsplit
    exact ⟨front, back, hparts, hbefore, hunbroken⟩
  · rintro ⟨before, after, hparts, hbefore, hunbroken⟩
    refine ⟨s.buffer, s.streak, before, after, h.holds.buffer, h.holds.streak, ?_, hbefore,
      hunbroken⟩
    rw [hparts, split_ofParts]

variable {w₀ : Embedded} {s₀ : State} {t₀ : Seen} {past events : List Event}

theorem History.exists_live (h : History w₀ t₀ past w t) (hlive : Live keymap w₀ s₀)
    (ht : t₀.pasting = s₀.pasting) : ∃ s, Live keymap w s ∧ t.pasting = s.pasting := by
  induction h with
  | start => exact ⟨s₀, hlive, ht⟩
  | dispatched _ hdispatch ih =>
    obtain ⟨s, hlive, ht⟩ := ih
    obtain ⟨s', hstep, hlive'⟩ := hlive.exists_step hdispatch
    exact ⟨s', hlive', hstep.pasting_next ht⟩

theorem intactThroughout_of_pastes (hlive : Live keymap w₀ s₀) (ht : t₀.pasting = s₀.pasting)
    (hintact : Intact s₀ t₀) (h : PastesBetweenStreaks w₀ t₀ events) :
    IntactThroughout w₀ t₀ events := by
  intro past w t hprefix hhistory
  induction hhistory with
  | start => exact hlive.streakIntact_iff.2 hintact
  | @dispatched past w w' t event action hpast hdispatch ih =>
    have hbefore := ih ((List.prefix_append past [event]).trans hprefix)
    obtain ⟨s, hlive, ht⟩ := hpast.exists_live hlive ht
    obtain ⟨s', hstep, hlive'⟩ := hlive.exists_step hdispatch
    -- a paste would have come while the streak was empty
    refine hlive'.streakIntact_iff.2 ((hstep.intact_iff ht hlive.valid
      (hlive.streakIntact_iff.1 hbefore)).2 fun hpaste => ?_)
    have hentry := hlive.holds.streak.symm.trans (h past event w t hprefix hpast hpaste)
    simpa using hentry

theorem pastes_of_intactThroughout (hlive : Live keymap w₀ s₀) (ht : t₀.pasting = s₀.pasting)
    (h : IntactThroughout w₀ t₀ events) : PastesBetweenStreaks w₀ t₀ events := by
  intro past event w t hprefix hhistory hpaste
  obtain ⟨s, hlive, ht⟩ := hhistory.exists_live hlive ht
  obtain ⟨action, w', s', hdispatch, hstep, hlive', -⟩ := exists_dispatch hlive event
  have hbefore := h past w t ((List.prefix_append past [event]).trans hprefix) hhistory
  have hafter := h _ w' _ hprefix (.dispatched hhistory hdispatch)
  have hstreak := (hstep.intact_iff ht hlive.valid (hlive.streakIntact_iff.1 hbefore)).1
    (hlive'.streakIntact_iff.1 hafter) hpaste
  rw [← hstreak]
  exact hlive.holds.streak

theorem expandsUnbroken_of_intactThroughout (hlive : Live keymap w₀ s₀)
    (ht : t₀.pasting = s₀.pasting) (h : IntactThroughout w₀ t₀ events) :
    ExpandsUnbroken w₀ t₀ events := by
  intro past k c w t w' hprefix hhistory hidle hkey hdispatch
  obtain ⟨s, hlive, ht⟩ := hhistory.exists_live hlive ht
  obtain ⟨s', hstep, hlive'⟩ := hlive.exists_step hdispatch
  have hbefore := h past w t ((List.prefix_append past [.key k]).trans hprefix) hhistory
  obtain ⟨plain, hinsert, hresult⟩ := hstep.inserts_or_replaces ht hidle hkey
    (hlive.streakIntact_iff.1 hbefore)
  refine ⟨s.buffer, plain, s'.buffer, hlive.holds.buffer, hinsert, hlive'.holds.buffer, ?_⟩
  rcases hresult with hplain | ⟨table, htable, hreplaces⟩
  · exact .inl hplain
  · simp only [List.mem_cons, List.not_mem_nil, or_false] at htable
    rcases htable with rfl | rfl | rfl
    · exact .inr ⟨simpleName, by simp, _, hlive.holds.simple, hreplaces⟩
    · exact .inr ⟨commandName, by simp, _, hlive.holds.command, hreplaces⟩
    · exact .inr ⟨smallWordName, by simp, _, hlive.holds.smallWord, hreplaces⟩

/-- **When the streak is what it is meant to be.** In a run from an empty streak, the streak is after
every event an end of the text before the dot that was typed without a break, exactly if the events
of pastes come while it is empty; and then every abbreviation that is expanded was typed without a
break. -/
theorem streak_intact_iff (keymap : Keymap) {tree : Tree} {s : State} {w : Embedded}
    (h : Configured tree s) (hbuilt : Built s.buffer) (hfaithful : s.highlighter.Faithful)
    (hstreak : s.streak = "") (hstart : Embedded.start keymap.application tree = .ok w)
    (events : List Event) :
    (IntactThroughout w ⟨s.pasting, ""⟩ events ↔ PastesBetweenStreaks w ⟨s.pasting, ""⟩ events) ∧
      (PastesBetweenStreaks w ⟨s.pasting, ""⟩ events →
        ExpandsUnbroken w ⟨s.pasting, ""⟩ events) := by
  obtain ⟨w', hstart', -, hlive⟩ := exists_start keymap h hbuilt.valid hfaithful
  rw [hstart, Except.ok.injEq] at hstart'
  subst hstart'
  have hintact := intact_of_empty hlive.valid hstreak ⟨s.pasting, ""⟩
  have hthroughout (hpastes : PastesBetweenStreaks w ⟨s.pasting, ""⟩ events) :
      IntactThroughout w ⟨s.pasting, ""⟩ events :=
    intactThroughout_of_pastes hlive rfl hintact hpastes
  exact ⟨⟨pastes_of_intactThroughout hlive rfl, hthroughout⟩,
    fun hpastes => expandsUnbroken_of_intactThroughout hlive rfl (hthroughout hpastes)⟩

theorem streak_intact_iff_abbreviated :
    ∃ w, Embedded.start Keymap.movement.application
        (.ofList [(simpleName, .abbreviations ⟨[("ll", "ls -l")]⟩)]) = .ok w ∧
      (IntactThroughout w ⟨false, ""⟩ [.key (.typed 'l'), .paste true, .paste false] ↔
        PastesBetweenStreaks w ⟨false, ""⟩ [.key (.typed 'l'), .paste true, .paste false]) ∧
      (PastesBetweenStreaks w ⟨false, ""⟩ [.key (.typed 'l'), .paste true, .paste false] →
        ExpandsUnbroken w ⟨false, ""⟩ [.key (.typed 'l'), .paste true, .paste false]) := by
  have hconfigured : Configured (.ofList [(simpleName, .abbreviations ⟨[("ll", "ls -l")]⟩)])
      { simple := ⟨[("ll", "ls -l")]⟩ } := by
    constructor <;> rfl
  have hbuilt : Built {} := .inl ⟨"", 0, rfl⟩
  obtain ⟨w, hstart, -, -⟩ :=
    exists_start .movement hconfigured hbuilt.valid Highlighter.faithful_plain
  exact ⟨w, hstart, streak_intact_iff .movement hconfigured hbuilt Highlighter.faithful_plain rfl
    hstart _⟩

/-- The buffer and the streak of a code area without a hook, after events on a tree. -/
def outcome (tree : Tree) (events : List Event) : Option (CodeBuffer × String) := do
  let w ← (Embedded.start Keymap.none.application tree).toOption
  let (_, w) ← (w.dispatchAll events).toOption
  let b ← (w.tree.load CodeBuffer (buffer .root).path).toOption
  let streak ← (w.tree.load String (tables .root).streak.path).toOption
  return (b, streak)

/-- A paste leaves the streak as it is, also where the streak does not stand before the dot any more;
and if the pasted text happens to end with it, a key typed after the paste completes an abbreviation
that was begun before it. -/
theorem paste_completes_abbreviation :
    outcome .empty [.key (.typed 'l'), .paste true, .key (.typed 'x'), .paste false] =
        some (⟨"lx", 2⟩, "l") ∧
      outcome (.ofList [(simpleName, .abbreviations ⟨[("ll", "ls -l")]⟩)])
        [.key (.typed 'l'), .paste true, .key (.typed 'l'), .paste false, .key (.typed 'l')] =
        some (⟨"lls -l", 6⟩, "") := by
  decide +kernel

end CodeArea

end TerminalUI
