import TerminalUI.Proofs.CodeArea.Run
import TerminalUI.Terminal.Input

/-!
# Pastes into a code area

A bracketed paste is one insertion at the dot. The keys in between are collected as the text that
they stand for, whatever they mean outside of a paste, and the end inserts it, quoted if asked for
(`Run.of_paste`). For a text that the terminal reports as pasted, that is the text with all line
breaks turned into line feeds (`literals_of_unifyBreaks`). No other entry changes
(`paste_inserts`).
-/

namespace TerminalUI

/-- A text with line feeds for all its line breaks: for a carriage return with the line feed after
it, and for any other carriage return. -/
def withLineFeeds : List Char → List Char
  | [] => []
  | '\r' :: '\n' :: cs => '\n' :: withLineFeeds cs
  | '\r' :: cs => '\n' :: withLineFeeds cs
  | c :: cs => c :: withLineFeeds cs

theorem Key.literal?_typed (c : Char) :
    (Key.typed c).literal? = some (if c = '\r' then '\n' else c) := by
  unfold Key.typed
  by_cases hbreak : c = '\n' ∨ c = '\r'
  · rw [if_pos hbreak]
    rcases hbreak with rfl | rfl <;> rfl
  · rw [if_neg hbreak, if_neg fun h => hbreak (.inr h)]
    by_cases htab : c = '\t'
    · rw [if_pos htab, htab]
      rfl
    · rw [if_neg htab]
      rfl

/-- The keys for a pasted text stand for it, with line feeds for its line breaks. -/
theorem literals_of_unifyBreaks (cs : List Char) :
    (Input.unifyBreaks cs).filterMap (fun c => (Key.typed c).literal?) = withLineFeeds cs := by
  induction cs using withLineFeeds.induct with
  | case1 => rfl
  | case2 cs ih =>
    rw [Input.unifyBreaks, withLineFeeds, List.filterMap_cons, Key.literal?_typed, ih]
    rfl
  | case3 cs hne ih =>
    rw [Input.unifyBreaks, withLineFeeds, List.filterMap_cons, Key.literal?_typed, ih]
    · rfl
    · exact hne
    · exact fun rest _ => hne rest
  | case4 c cs hpair hne ih =>
    rw [Input.unifyBreaks, withLineFeeds, List.filterMap_cons, Key.literal?_typed, ih]
    · simp only [if_neg hne]
    · exact hpair
    · exact hne
    · exact hpair

namespace CodeArea

open CodeBuffer

variable {keymap : Keymap} {s s' : State} {action : Action} {actions : List Action}
  {w : Embedded}

/-! ### The steps of a paste -/

theorem Step.of_pasteStart (h : Step keymap s (.paste true) action s') :
    action = .consumed ∧ s' = { s with pasting := true, pasted := "" } := by
  cases h with
  | submitted hsubmits => simp [Keymap.submits, Event.key?] at hsubmits
  | moved _ hhandled => cases hhandled
  | handled _ _ hhandled =>
    cases hhandled
    exact ⟨rfl, rfl⟩

theorem Step.of_key_of_pasting {k : Key} (hpasting : s.pasting = true)
    (h : Step keymap s (.key k) action s') :
    action = .consumed ∧ s' = { s with pasted := s.pasted ++ literalText k } := by
  cases h with
  | submitted _ hidle => simp [hpasting] at hidle
  | moved _ hhandled =>
    cases hhandled with
    | typing hidle => simp [hpasting] at hidle
  | handled _ _ hhandled =>
    cases hhandled with
    | collected => exact ⟨rfl, rfl⟩
    | typing hidle => simp [hpasting] at hidle

theorem Step.of_pasteEnd (h : Step keymap s (.paste false) action s') :
    ∃ before after, s.buffer = ofParts before after ∧ action = .consumed ∧
      s' = { s with
        buffer := ofParts (before ++ s.insertion s.pasted) after, pasting := false
        pasted := "" } := by
  cases h with
  | submitted hsubmits => simp [Keymap.submits, Event.key?] at hsubmits
  | moved _ hhandled => cases hhandled
  | handled _ _ hhandled =>
    cases hhandled with
    | pasteEnded hbuffer => exact ⟨_, _, hbuffer, rfl, rfl⟩

/-! ### Whole pastes -/

/-- The text that keys stand for, one after the other. -/
def literals (keys : List Key) : String := String.ofList (keys.filterMap Key.literal?)

theorem literals_cons (k : Key) (keys : List Key) :
    literals (k :: keys) = literalText k ++ literals keys := by
  rw [literals, literals, literalText, List.filterMap_cons]
  cases k.literal? with
  | none => rw [String.empty_append]
  | some c => exact String.ofList_cons

/-- The keys of a paste and its end. -/
theorem Run.of_pasteKeys {keys : List Key} (hpasting : s.pasting = true)
    (h : Run keymap s (keys.map .key ++ [.paste false]) actions s') :
    ∃ before after, s.buffer = ofParts before after ∧
      actions = List.replicate (keys.length + 1) .consumed ∧
      s' = { s with
        buffer := ofParts (before ++ s.insertion (s.pasted ++ literals keys)) after
        pasting := false, pasted := "" } := by
  -- what is collected so far grows with every key, and is inserted at the end
  induction keys generalizing s actions with
  | nil =>
    cases h with
    | cons hstep hrun =>
      cases hrun
      obtain ⟨before, after, hbuffer, rfl, rfl⟩ := hstep.of_pasteEnd
      refine ⟨before, after, hbuffer, rfl, ?_⟩
      rw [literals, List.filterMap_nil, String.ofList_nil, String.append_empty]
  | cons k keys ih =>
    cases h with
    | cons hstep hrun =>
      obtain ⟨rfl, rfl⟩ := hstep.of_key_of_pasting hpasting
      have hpasting' : { s with pasted := s.pasted ++ literalText k }.pasting = true := hpasting
      obtain ⟨before, after, hbuffer, rfl, rfl⟩ := ih hpasting' hrun
      refine ⟨before, after, hbuffer, rfl, ?_⟩
      rw [literals_cons, ← String.append_assoc]
      rfl

/-- A paste is one insertion of the text that its keys stand for. -/
theorem Run.of_paste {keys : List Key}
    (h : Run keymap s (.paste true :: (keys.map .key ++ [.paste false])) actions s') :
    ∃ before after, s.buffer = ofParts before after ∧
      actions = List.replicate (keys.length + 2) .consumed ∧
      s' = { s with
        buffer := ofParts (before ++ s.insertion (literals keys)) after, pasting := false
        pasted := "" } := by
  cases h with
  | cons hstep hrun =>
    obtain ⟨rfl, rfl⟩ := hstep.of_pasteStart
    obtain ⟨before, after, hbuffer, rfl, rfl⟩ := hrun.of_pasteKeys rfl
    refine ⟨before, after, hbuffer, rfl, ?_⟩
    rw [String.empty_append]
    rfl

/-- The embedded code area deals with the events as with one insertion of the text at the dot, quoted
if asked for. Other entries stay, also that of the streak; the message of an earlier failure may go,
as with any event. -/
def TakesAsPaste (keymap : Keymap) (w : Embedded) (events : List Event) (text : String) : Prop :=
  ∃ b quote b' w', w.tree.get? bufferName = some (.buffer b) ∧
    w.tree.get? quotePasteName = some (.bool quote) ∧
    w.dispatchAll events = .ok (List.replicate events.length .consumed, w') ∧
    b.insert (if quote then ShellWord.quote text else text) = .ok b' ∧
    w'.tree.get? bufferName = some (.buffer b') ∧
    w'.tree.get? pastingName = some (.bool false) ∧ w'.tree.get? pastedName = some (.string "") ∧
    ∀ name : String, name ≠ bufferName → name ≠ pastedName →
      (name = errorName → keymap = .none ∨ w.tree.get? errorName = none) →
      w'.tree.get? name = w.tree.get? name

theorem Live.takesAsPaste (h : Live keymap w s) (hidle : s.pasting = false) (keys : List Key) :
    TakesAsPaste keymap w (.paste true :: (keys.map .key ++ [.paste false])) (literals keys) := by
  obtain ⟨actions, w', s', hdispatch, hrun, hlive, hkeeps⟩ :=
    exists_dispatchAll h (.paste true :: (keys.map .key ++ [.paste false]))
  obtain ⟨before, after, hbuffer, rfl, rfl⟩ := hrun.of_paste
  refine ⟨s.buffer, s.quote, _, w', h.holds.buffer, h.holds.quote, ?_, ?_, hlive.holds.buffer,
    hlive.holds.pasting, hlive.holds.pasted, ?_⟩
  · rw [hdispatch]
    simp
  · rw [hbuffer, insert_ofParts]
    rfl
  · intro name hneBuffer hnePasted herror
    by_cases hwritten : name ∈ writtenNames
    · simp only [writtenNames, List.mem_cons, hneBuffer, hnePasted, List.not_mem_nil, false_or,
        or_false] at hwritten
      -- the streak and the mark of a paste are written, but end up as they were
      rcases hwritten with rfl | rfl
      · exact hlive.holds.streak.trans h.holds.streak.symm
      · have hbefore : w.tree.get? pastingName = some (.bool false) := hidle ▸ h.holds.pasting
        exact hlive.holds.pasting.trans hbefore.symm
    · exact hkeeps name hwritten herror

theorem pasteEvents_eq (text : String) :
    Input.pasteEvents text = .paste true ::
      (((Input.unifyBreaks text.toList).map Key.typed).map .key ++ [.paste false]) := by
  rw [Input.pasteEvents, List.map_map]
  rfl

theorem literals_typed (text : String) :
    literals ((Input.unifyBreaks text.toList).map Key.typed) =
      String.ofList (withLineFeeds text.toList) := by
  rw [literals, List.filterMap_map, ← literals_of_unifyBreaks]
  rfl

/-- **A paste is one insertion.** However a code area got where it is, if no paste is in progress, a
text that the terminal reports as pasted is inserted at the dot with line feeds for its line breaks,
and so is, more generally, what any keys between the start and the end of a paste stand for. -/
theorem paste_inserts (h : Reachable keymap w)
    (hidle : w.tree.get? pastingName = some (.bool false)) :
    (∀ text : String, TakesAsPaste keymap w (Input.paste text).events
      (String.ofList (withLineFeeds text.toList))) ∧
    ∀ keys : List Key, TakesAsPaste keymap w (.paste true :: (keys.map .key ++ [.paste false]))
      (String.ofList (keys.filterMap Key.literal?)) := by
  obtain ⟨s, hlive⟩ := h.exists_live
  have hpasting : s.pasting = false := by
    have hentry := hlive.holds.pasting.symm.trans hidle
    simpa using hentry
  refine ⟨fun text => ?_, hlive.takesAsPaste hpasting⟩
  rw [Input.events, pasteEvents_eq, ← literals_typed]
  exact hlive.takesAsPaste hpasting _

theorem paste_inserts_two_lines :
    ∃ w, Embedded.start Keymap.submission.application .empty = .ok w ∧
      TakesAsPaste .submission w (Input.paste "a\r\nb\r").events "a\nb\n" := by
  have hbuilt : Built ({} : State).buffer := .inl ⟨"", 0, rfl⟩
  obtain ⟨w, hstart, htree, -⟩ :=
    exists_start .submission configured_empty hbuilt.valid Highlighter.faithful_plain
  have hreachable : Reachable .submission w := ⟨.empty, {}, w, [], [], configured_empty, hbuilt,
    Highlighter.faithful_plain, hstart, rfl⟩
  have hidle : w.tree.get? pastingName = some (.bool false) := by
    rw [Embedded.tree, htree]
    rfl
  exact ⟨w, hstart, (paste_inserts hreachable hidle).1 "a\r\nb\r"⟩

end CodeArea

end TerminalUI
