import TerminalUI.Proofs.Widget.Consistency

/-!
# What an event changes

The layers of a code area write four entries of its level, each layer its own and the outer ones
after they have seen what the inner ones did. Here is what an event can change, at any place in a
tree and without a hook: which entries, how little if the event is not used, and what happens to the
pasted text and to the buffer.

* `exists_leads_play` : a code area goes on over any events, at any place;
* `Typing.edits` : a key outside of a paste deletes a character, inserts its own or does nothing;
* `event_changes` : **the changes of an event**, in every tree that a code area can lead to.
-/

namespace TerminalUI

namespace CodeArea

open CodeBuffer

variable {keymap : Keymap} {level : Path} {t t' m m' : Tree} {s s' : State} {event : Event}
  {action : Action} {k : Key}

/-! ### Runs at a level -/

/-- A code area goes on over any events. -/
theorem exists_leads_play (keymap : Keymap) (level : Path) (h : Configured m s)
    (hvalid : s.buffer.Valid) (hfaithful : s.highlighter.Faithful) (events : List Event) :
    ∃ result s' m', Program.Leads keymap.hook level (codeArea.play level events) m result m' ∧
      Holds m' s' ∧ s'.buffer.Valid ∧ s'.highlighter.Faithful := by
  induction events generalizing m s with
  | nil =>
    obtain ⟨code, tips, hcode, -⟩ := exists_shownCode hfaithful s.pending s.buffer.content
    exact ⟨_, s, initialized m, .bind (leads_invoke h hcode) (.pure _), h, hvalid, hfaithful⟩
  | cons event events ih =>
    obtain ⟨code, tips, hcode, -⟩ := exists_shownCode hfaithful s.pending s.buffer.content
    obtain ⟨action, s₁, m₁, hhandler, hstep, hholds, -⟩ :=
      exists_leads_handler keymap h hvalid event
    have hfaithful₁ : s₁.highlighter.Faithful := hstep.highlighter_eq ▸ hfaithful
    obtain ⟨result, s', m', hplay, hrest⟩ :=
      ih hholds.configured (hstep.valid hvalid) hfaithful₁
    exact ⟨_, s', m', .bind (leads_invoke h hcode) (.bind hhandler (.bind hplay (.pure _))), hrest⟩

/-- The tree is what a code area at the level leads to without a hook, over some events, from a tree
that offers a configured map. -/
def LeadsTo (level : Path) (t : Tree) : Prop :=
  ∃ t₀ m s events journal result, Tree.Offers t₀ level m ∧ Configured m s ∧ Built s.buffer ∧
    s.highlighter.Faithful ∧
    Blueprint.codeArea.playAt level events ⟨t₀, journal⟩ = (.ok result, ⟨t, journal⟩)

/-- From a configured map, a code area leads somewhere. -/
theorem exists_leadsTo (ht : t.Offers level m) (h : Configured m s)
    (hbuilt : Built s.buffer) (hfaithful : s.highlighter.Faithful) (events : List Event)
    (journal : List JournalEntry) :
    ∃ result t', Blueprint.codeArea.playAt level events ⟨t, journal⟩ =
        (.ok result, ⟨t', journal⟩) ∧ LeadsTo level t' := by
  obtain ⟨result, s', m', hleads, -⟩ :=
    exists_leads_play .none level h hbuilt.valid hfaithful events
  obtain ⟨t₁, ht₁, -, hsame⟩ := ht.exists_playAt (b := .codeArea) (.inl rfl)
  obtain ⟨t', hrun, -⟩ := hleads.exists_run journal ht₁
  have hplay : Blueprint.codeArea.playAt level events ⟨t, journal⟩ =
      (.ok result, ⟨t', journal⟩) := (hsame events journal).trans hrun
  exact ⟨result, t', hplay, t, m, s, events, journal, result, ht, h, hbuilt, hfaithful, hplay⟩

theorem LeadsTo.exists_holds (h : LeadsTo level t) :
    ∃ m s, t.resolve level = some (.map m) ∧ Holds m s ∧ s.buffer.Valid ∧
      s.highlighter.Faithful := by
  obtain ⟨t₀, m, s, events, journal, result, hoffers, hconfigured, hbuilt, hfaithful, hplay⟩ := h
  obtain ⟨t₁, ht₁, -, hsame⟩ := hoffers.exists_playAt (b := .codeArea) (.inl rfl)
  obtain ⟨result', s', m', hleads, hholds, hvalid, hfaithful'⟩ :=
    exists_leads_play .none level hconfigured hbuilt.valid hfaithful events
  obtain ⟨t', hrun, ht', -⟩ := hleads.exists_run journal ht₁
  -- the run that is known to exist is the one at hand
  have heq : t = t' :=
    congrArg (fun r => r.2.tree) (hplay.symm.trans ((hsame events journal).trans hrun))
  exact ⟨m', s', heq ▸ ht', hholds, hvalid, hfaithful'⟩

/-- An event goes through a code area without a hook. -/
theorem exists_leads_answer (level : Path) (h : Holds m s) (hvalid : s.buffer.Valid)
    (hfaithful : s.highlighter.Faithful) (event : Event) :
    ∃ action s' m', Program.Leads none level (codeArea.answer level event) m action m' ∧
      Handled s event action s' ∧ Holds m' s' ∧ CodeArea.Keeps m m' := by
  obtain ⟨code, tips, hcode, -⟩ := exists_shownCode hfaithful s.pending s.buffer.content
  have hinvoke : Program.Leads none level (codeArea.invoke level) m
      ⟨shownView (initialized m) (s.layout code tips), handler level⟩ (initialized m) :=
    leads_invoke h.configured hcode
  -- all entries are there, so making the scene again makes nothing
  rw [initialized_of_holds h] at hinvoke
  obtain ⟨action, s', m', hleads, hhandled⟩ := exists_leads_layeredHandler none level h hvalid event
  exact ⟨action, s', m', .bind hinvoke (.dispatch_none hleads), hhandled⟩

/-! ### Edits -/

/-- The second buffer is the first one with an abbreviation of the table expanded. It stands right
before the dot, or right before the character that was typed last. -/
def ExpandsOne (table : Abbreviations) (c : Char) (plain b : CodeBuffer) : Prop :=
  ∃ short full rest last after, (short, full) ∈ table.entries ∧
    (last = "" ∨ last = .singleton c) ∧ plain = ofParts (rest ++ short ++ last) after ∧
    b = ofParts (rest ++ full ++ last) after

/-- What becomes of the buffer with a key outside of a paste. -/
inductive Edits (s : State) (k : Key) : CodeBuffer → Prop where
  | unchanged : Edits s k s.buffer
  | deleted {before after : String} {c : Char}
    (hbuffer : s.buffer = ofParts (before ++ .singleton c) after) :
    Edits s k (ofParts before after)
  | inserted {c : Char} {b : CodeBuffer} (hkey : k.literal? = some c)
    (hinsert : s.buffer.insert (.singleton c) = .ok b) : Edits s k b
  | expanded {c : Char} {plain b : CodeBuffer} {table : Abbreviations}
    (hkey : k.literal? = some c) (hinsert : s.buffer.insert (.singleton c) = .ok plain)
    (htable : table ∈ [s.simple, s.command, s.smallWord])
    (hexpands : ExpandsOne table c plain b) : Edits s k b

theorem Expands.expandsOne {before after streak : String} {c : Char} {b : CodeBuffer}
    (h : Expands s before after streak c b) :
    ∃ table ∈ [s.simple, s.command, s.smallWord], ExpandsOne table c (ofParts before after) b := by
  cases h with
  | @simple short full rest hmem _ hbefore =>
    refine ⟨s.simple, by simp, short, full, rest, "", after, hmem, .inl rfl, ?_, ?_⟩
    · rw [String.append_empty, hbefore]
    · rw [String.append_empty]
  | @command short full rest hmem _ hbefore =>
    refine ⟨s.command, by simp, short, full, rest, .singleton c, after, hmem, .inr rfl, ?_, ?_⟩
    · rw [← String.push_eq_append, hbefore]
    · rw [← String.push_eq_append]
  | @smallWord short full rest hmem _ hbefore =>
    refine ⟨s.smallWord, by simp, short, full, rest, .singleton c, after, hmem, .inr rfl, ?_, ?_⟩
    · rw [← String.push_eq_append, hbefore]
    · rw [← String.push_eq_append]

theorem Typing.edits (h : Typing s k action s') : Edits s k s'.buffer := by
  have hinsert {before after : String} (hbuffer : s.buffer = ofParts before after) (c : Char) :
      s.buffer.insert (.singleton c) = .ok (ofParts (before.push c) after) := by
    rw [hbuffer, insert_ofParts, String.push_eq_append]
  cases h with
  | @deleted before after _ hbuffer =>
    -- at the start of the text, there is nothing to delete
    rcases eq_empty_or_append_singleton before with rfl | ⟨front, c, rfl⟩
    · have hsame : ofParts (.ofList "".toList.dropLast) after = s.buffer := hbuffer.symm
      dsimp only
      rw [hsame]
      exact .unchanged
    · have hlast : String.ofList (front ++ String.singleton c).toList.dropLast = front := by
        simp
      dsimp only
      rw [hlast]
      exact .deleted hbuffer
  | typed hkey _ hbuffer => exact .inserted hkey (hinsert hbuffer _)
  | expanded hkey _ hbuffer hexpands =>
    obtain ⟨table, htable, hone⟩ := hexpands.expandsOne
    exact .expanded hkey (hinsert hbuffer _) htable hone
  | unused => exact .unchanged

/-! ### Changes -/

/-- An event that is not used empties the streak at most. -/
theorem Handled.of_unused (h : Handled s event .unused s') :
    s' = s ∨ s' = { s with streak := "" } := by
  cases h with
  | resized => exact .inl rfl
  | typing _ htyping =>
    cases htyping with
    | unused => exact .inr rfl

theorem Handled.of_key_of_pasting (h : Handled s (.key k) action s') (hpasting : s.pasting = true) :
    s' = { s with pasted := s.pasted ++ literalText k } := by
  cases h with
  | collected => rfl
  | typing hidle => simp [hpasting] at hidle

theorem Handled.edits (h : Handled s (.key k) action s') (hidle : s.pasting = false) :
    Edits s k s'.buffer := by
  cases h with
  | collected _ hpasting => simp [hidle] at hpasting
  | typing _ htyping => exact htyping.edits

/-- What an event changes in a tree, and in the elements that a code area has at a level of it. -/
structure Changes (level : Path) (event : Event) (action : Action) (t : Tree) (s : State)
    (t' : Tree) (s' : State) : Prop where
  /-- All but the buffer, the streak, the mark of a paste and the pasted text stay. -/
  written : t.SameBeside level {name | name.text ∈ writtenNames} t'
  /-- If the event is not used, all but the streak stay, and the streak stays or is emptied. -/
  unused : action = .unused →
    t.SameBeside level {streakName} t' ∧ (s'.streak = s.streak ∨ s'.streak = "")
  /-- During a paste, a key adds its literal to the pasted text, if it has one. -/
  collected : ∀ k, event = .key k → s.pasting = true →
    t.SameBeside level {pastedName} t' ∧ s'.pasted = s.pasted ++ literalText k
  /-- Outside of a paste, a key edits the buffer at the dot. -/
  edited : ∀ k, event = .key k → s.pasting = false → Edits s k s'.buffer

theorem Handled.changes (h : Handled s event action s') (hm : Holds m s) (hm' : Holds m' s')
    (hkeeps : CodeArea.Keeps m m') (ht : t.resolve level = some (.map m))
    (ht' : t'.resolve level = some (.map m')) (hsame : t.SameOutside level t') :
    Changes level event action t s t' s' where
  written := hsame.beside_of_get? ht ht' fun name hname => hkeeps name hname
  unused := by
    rintro rfl
    refine ⟨hsame.beside_of_get? ht ht' fun name hname => ?_, ?_⟩
    · rcases h.of_unused with rfl | rfl
      · exact hm.get?_eq hm' (hkeeps name) (fun _ => rfl) (fun _ => rfl) (fun _ => rfl) fun _ => rfl
      · exact hm.get?_eq hm' (hkeeps name) (fun _ => rfl)
          (fun heq => absurd (Name.ext heq) hname) (fun _ => rfl) fun _ => rfl
    · rcases h.of_unused with rfl | rfl
      · exact .inl rfl
      · exact .inr rfl
  collected := by
    rintro k rfl hpasting
    obtain rfl := h.of_key_of_pasting hpasting
    refine ⟨hsame.beside_of_get? ht ht' fun name hname => ?_, rfl⟩
    exact hm.get?_eq hm' (hkeeps name) (fun _ => rfl) (fun _ => rfl) (fun _ => rfl)
      fun heq => absurd (Name.ext heq) hname
  edited := by
    rintro k rfl hidle
    exact h.edits hidle

/-- **What an event changes.** In every tree that a code area leads to without a hook, an event is
no fault. It changes the buffer, the streak, the mark of a paste and the pasted text at most, and
nothing else at the level or anywhere in the tree. If it is not used, it empties the streak at most.
A key during a paste adds its literal to the pasted text, if it has one, and changes nothing else. A
key outside of a paste leaves the buffer as it is, deletes the character before the dot, or inserts
its literal at the dot, after which one abbreviation may be expanded. -/
theorem event_changes (h : LeadsTo level t) (event : Event) (journal : List JournalEntry) :
    ∃ action t' m s m' s', ((codeArea.answer level event).run none).run ⟨t, journal⟩ =
        (.ok action, ⟨t', journal⟩) ∧
      t.resolve level = some (.map m) ∧ Holds m s ∧ t'.resolve level = some (.map m') ∧
      Holds m' s' ∧ Changes level event action t s t' s' := by
  obtain ⟨m, s, ht, hholds, hvalid, hfaithful⟩ := h.exists_holds
  obtain ⟨action, s', m', hleads, hhandled, hholds', hkeeps⟩ :=
    exists_leads_answer level hholds hvalid hfaithful event
  obtain ⟨t', hrun, ht', hsame⟩ := hleads.exists_run journal ht
  exact ⟨action, t', m, s, m', s', hrun, ht, hholds, ht', hholds',
    hhandled.changes hholds hholds' hkeeps ht ht' hsame⟩

/-- A tree with a number beside a code area that has an abbreviation. -/
def abbreviated : Tree :=
  .ofList [("p", .map (.ofList [(simpleName, .abbreviations ⟨[("ll", "ls -l")]⟩)])),
    ("x", .integer 0)]

theorem event_changes_abbreviated :
    ∃ result t action t' m s m' s',
      Blueprint.codeArea.playAt (.ofList ["p"]) [.key (.typed 'l')] ⟨abbreviated, []⟩ =
        (.ok result, ⟨t, []⟩) ∧
      ((codeArea.answer (.ofList ["p"]) (.key (.typed 'l'))).run none).run ⟨t, []⟩ =
        (.ok action, ⟨t', []⟩) ∧
      t.resolve (.ofList ["p"]) = some (.map m) ∧ Holds m s ∧
      t'.resolve (.ofList ["p"]) = some (.map m') ∧ Holds m' s' ∧
      Changes (.ofList ["p"]) (.key (.typed 'l')) action t s t' s' := by
  have hlevel : abbreviated.resolve (.ofList ["p"]) = some (.map (.ofList [
      (simpleName, .abbreviations ⟨[("ll", "ls -l")]⟩)])) := rfl
  have hconfigured : Configured (.ofList [(simpleName, .abbreviations ⟨[("ll", "ls -l")]⟩)])
      { simple := ⟨[("ll", "ls -l")]⟩ } := by
    constructor <;> rfl
  have hbuilt : Built {} := .inl ⟨"", 0, rfl⟩
  obtain ⟨result, t, hplay, hleadsTo⟩ := exists_leadsTo (.inl hlevel) hconfigured hbuilt
    Highlighter.faithful_plain [.key (.typed 'l')] []
  obtain ⟨action, t', m, s, m', s', hanswer⟩ := event_changes hleadsTo (.key (.typed 'l')) []
  exact ⟨result, t, action, t', m, s, m', s', hplay, hanswer⟩

end CodeArea

end TerminalUI
