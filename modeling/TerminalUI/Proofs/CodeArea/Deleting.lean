import Mathlib.Data.List.Forall2
import TerminalUI.Proofs.CodeArea.Paste

/-!
# Deleting what was typed

Deleting undoes inserting: as many deletions as a text has characters take it away again, in front
of the dot and in the middle of any other text. In a code area without abbreviations, the keys that
type the text insert it, and the keys that delete do nothing but delete.

* `CodeBuffer.backspaces_of_insert` : the law for buffers;
* `Step.of_deletes`, `Step.of_insertable` : the steps of a code area without abbreviations;
* `Run.of_typing`, `Run.of_deleting` : what runs of such steps do to the buffer;
* `deleting_undoes_typing` : **typing and then deleting leaves the buffer as it was**, and the
  streak empty.
-/

namespace TerminalUI

namespace CodeBuffer

/-- The buffer without some number of characters before the dot, deleted one after the other. -/
def backspaces : Nat → CodeBuffer → Except Fault CodeBuffer
  | 0, b => .ok b
  | n + 1, b => do backspaces n (← b.backspace)

variable {b b₁ b₂ : CodeBuffer} {text : String}

theorem backspaces_succ {n : Nat} (h : b.backspace = .ok b₁) :
    b.backspaces (n + 1) = b₁.backspaces n := by
  rw [backspaces, h]
  rfl

theorem backspaces_append (before after : String) (cs : List Char) :
    (ofParts (before ++ .ofList cs) after).backspaces cs.length = .ok (ofParts before after) := by
  induction cs using List.reverseRecOn with
  | nil =>
    rw [String.ofList_nil, String.append_empty]
    rfl
  | append_singleton cs c ih =>
    -- the last character goes first
    have hlast : (ofParts (before ++ .ofList (cs ++ [c])) after).backspace =
        .ok (ofParts (before ++ .ofList cs) after) := by
      rw [backspace_ofParts, String.toList_append, String.toList_ofList, ← List.append_assoc,
        List.dropLast_concat, String.ofList_append, String.ofList_toList]
    rw [List.length_append, List.length_singleton, backspaces_succ hlast, ih]

theorem exists_insert (hvalid : b.Valid) (text : String) :
    ∃ b₁, b.insert text = .ok b₁ ∧ b₁.Valid := by
  obtain ⟨before, after, rfl⟩ := valid_iff.1 hvalid
  exact ⟨_, insert_ofParts before after text, valid_ofParts _ _⟩

/-- As many deletions as a text has characters undo its insertion. -/
theorem backspaces_of_insert (hvalid : b.Valid) (h : b.insert text = .ok b₁) :
    b₁.backspaces text.length = .ok b := by
  obtain ⟨before, after, rfl⟩ := valid_iff.1 hvalid
  rw [insert_ofParts, Except.ok.injEq] at h
  have hundo := backspaces_append before after text.toList
  rwa [String.ofList_toList, h, String.length_toList] at hundo

theorem insert_append (hvalid : b.Valid) {more : String} (h : b.insert text = .ok b₁)
    (hmore : b₁.insert more = .ok b₂) : b.insert (text ++ more) = .ok b₂ := by
  obtain ⟨before, after, rfl⟩ := valid_iff.1 hvalid
  rw [insert_ofParts, Except.ok.injEq] at h
  rw [← h, insert_ofParts, String.append_assoc] at hmore
  rw [insert_ofParts, hmore]

theorem insert_empty (hvalid : b.Valid) : b.insert "" = .ok b := by
  obtain ⟨before, after, rfl⟩ := valid_iff.1 hvalid
  rw [insert_ofParts, String.append_empty]

end CodeBuffer

namespace CodeArea

open CodeBuffer

/-- There are no abbreviations. -/
structure State.Plain (s : State) : Prop where
  simple : s.simple = {}
  command : s.command = {}
  smallWord : s.smallWord = {}

variable {keymap : Keymap} {s s' : State} {action : Action} {actions : List Action} {k : Key}
  {keys : List Key} {text : String} {w : Embedded}

/-- Empty tables at the level are those of the state. -/
theorem Holds.plain {m : Tree} (h : Holds m s)
    (htables : ∀ name ∈ [simpleName, commandName, smallWordName],
      m.get? name = some (.abbreviations {})) : s.Plain := by
  have hsimple := h.simple.symm.trans (htables simpleName (by simp))
  have hcommand := h.command.symm.trans (htables commandName (by simp))
  have hsmallWord := h.smallWord.symm.trans (htables smallWordName (by simp))
  exact ⟨by simpa using hsimple, by simpa using hcommand, by simpa using hsmallWord⟩

/-! ### One key -/

theorem State.Plain.not_expands (h : s.Plain) {before after streak : String} {c : Char}
    {b : CodeBuffer} : ¬ Expands s before after streak c b := by
  intro hexpands
  cases hexpands with
  | simple hmem => simp [h.simple] at hmem
  | command hmem => simp [h.command] at hmem
  | smallWord hmem => simp [h.smallWord] at hmem

theorem isInsertable_of_submits (h : Hook.submits k = true) :
    deletes k = false ∧ k.literal?.any isInsertable = false := by
  simp only [Hook.submits, Key.isBare, Bool.or_eq_true, decide_eq_true_eq] at h
  rcases h with (rfl | rfl) | rfl <;> decide

/-- Keys that delete or insert are never left to a hook. -/
theorem Step.typing_of_used (hidle : s.pasting = false)
    (hused : deletes k = true ∨ k.literal?.any isInsertable = true)
    (h : Step keymap s (.key k) action s') : Typing s k action s' := by
  have hunused {s₁ : State} (h : Typing s k .unused s₁) : False := by
    cases h with
    | unused hdeletes hinsert => simp [hdeletes, hinsert] at hused
  cases h with
  | submitted hsubmits =>
    -- the keys that submit neither delete nor insert
    simp only [Keymap.submits, Event.key?, Option.any_some, Bool.and_eq_true] at hsubmits
    obtain ⟨hdeletes, hinsert⟩ := isInsertable_of_submits hsubmits.2
    simp [hdeletes, hinsert] at hused
  | moved _ hhandled =>
    cases hhandled with
    | typing _ htyping => exact (hunused htyping).elim
  | handled _ _ hhandled =>
    cases hhandled with
    | collected _ hpasting => simp [hidle] at hpasting
    | typing _ htyping => exact htyping

theorem Step.of_deletes (hidle : s.pasting = false) (hkey : deletes k = true)
    (h : Step keymap s (.key k) action s') :
    action = .consumed ∧ ∃ b, s.buffer.backspace = .ok b ∧
      s' = { s with buffer := b, streak := "" } := by
  have hliteral : k.literal? = none := literal?_of_deletes hkey
  cases h.typing_of_used hidle (.inl hkey) with
  | @deleted before after _ hbuffer =>
    exact ⟨rfl, _, hbuffer ▸ backspace_ofParts before after, rfl⟩
  | typed hsome => simp [hliteral] at hsome
  | expanded hsome => simp [hliteral] at hsome
  | unused hdeletes => simp [hkey] at hdeletes

theorem Step.of_insertable (hidle : s.pasting = false) (hplain : s.Plain) {c : Char}
    (hkey : k.literal? = some c) (hinsert : isInsertable c = true)
    (h : Step keymap s (.key k) action s') :
    action = .consumed ∧ ∃ b streak, s.buffer.insert (.singleton c) = .ok b ∧
      s' = { s with buffer := b, streak := streak } := by
  have hused : k.literal?.any isInsertable = true := by rw [hkey, Option.any_some, hinsert]
  cases h.typing_of_used hidle (.inr hused) with
  | deleted hdeletes => simp [literal?_of_deletes hdeletes] at hkey
  | @typed _ before after hsome _ hbuffer =>
    obtain rfl : _ = c := Option.some.inj (hsome.symm.trans hkey)
    refine ⟨rfl, _, _, ?_, rfl⟩
    rw [hbuffer, insert_ofParts, ← String.push_eq_append]
  | expanded _ _ _ hexpands => exact (hplain.not_expands hexpands).elim
  | unused _ hnone => simp [hused] at hnone

/-! ### Runs -/

theorem Run.exists_of_append {first second : List Event}
    (h : Run keymap s (first ++ second) actions s') :
    ∃ actions₁ s₁ actions₂, actions = actions₁ ++ actions₂ ∧ Run keymap s first actions₁ s₁ ∧
      Run keymap s₁ second actions₂ s' := by
  induction first generalizing s actions with
  | nil => exact ⟨[], s, actions, rfl, .nil s, h⟩
  | cons event first ih =>
    cases h with
    | cons hstep hrun =>
      obtain ⟨actions₁, s₁, actions₂, rfl, hfirst, hsecond⟩ := ih hrun
      exact ⟨_ :: actions₁, s₁, actions₂, rfl, .cons hstep hfirst, hsecond⟩

/-- The keys type the text, one for each character, and typing inserts all of these. -/
def Types (keys : List Key) (text : String) : Prop :=
  List.Forall₂ (fun k c => k.literal? = some c ∧ isInsertable c = true) keys text.toList

theorem literal?_typed_of_insertable {c : Char} (h : isInsertable c = true) :
    (Key.typed c).literal? = some c := by
  have hbreak : c ≠ '\r' := by
    rintro rfl
    exact absurd h (by decide)
  rw [Key.literal?_typed, if_neg hbreak]

/-- A text of characters that typing inserts is typed by the keys for them. -/
theorem types_typed (h : ∀ c ∈ text.toList, isInsertable c = true) :
    Types (text.toList.map Key.typed) text := by
  rw [Types, List.forall₂_map_left_iff, List.forall₂_same]
  exact fun c hc => ⟨literal?_typed_of_insertable (h c hc), h c hc⟩

/-- The keys insert the text that they type. -/
theorem Run.of_typing (hvalid : s.buffer.Valid) (hidle : s.pasting = false) (hplain : s.Plain)
    (hkeys : Types keys text) (h : Run keymap s (keys.map .key) actions s') :
    actions = List.replicate keys.length .consumed ∧
      ∃ b streak, s.buffer.insert text = .ok b ∧ s' = { s with buffer := b, streak := streak } := by
  obtain ⟨cs, rfl⟩ : ∃ cs, text = .ofList cs := ⟨text.toList, String.ofList_toList.symm⟩
  rw [Types, String.toList_ofList] at hkeys
  induction hkeys generalizing s actions with
  | nil =>
    cases h
    exact ⟨rfl, _, _, insert_empty hvalid, rfl⟩
  | @cons k c keys cs hkey _ ih =>
    cases h with
    | cons hstep hrun =>
      -- a key changes the buffer and the streak, so the rest is typed with the same tables
      have hvalid₁ := hstep.valid hvalid
      obtain ⟨rfl, b₁, streak₁, hinsert, rfl⟩ := hstep.of_insertable hidle hplain hkey.1 hkey.2
      have hplain₁ : { s with buffer := b₁, streak := streak₁ }.Plain :=
        ⟨hplain.simple, hplain.command, hplain.smallWord⟩
      obtain ⟨rfl, b, streak, hrest, rfl⟩ := ih hvalid₁ hidle hplain₁ hrun
      refine ⟨rfl, b, streak, ?_, rfl⟩
      rw [String.ofList_cons]
      exact insert_append hvalid hinsert hrest

/-- The keys that delete do so one after the other, and empty the streak. -/
theorem Run.of_deleting (hidle : s.pasting = false) (hkeys : ∀ k ∈ keys, deletes k = true)
    (h : Run keymap s (keys.map .key) actions s') :
    actions = List.replicate keys.length .consumed ∧
      ∃ b, s.buffer.backspaces keys.length = .ok b ∧
        s' = { s with buffer := b, streak := if keys = [] then s.streak else "" } := by
  induction keys generalizing s actions with
  | nil =>
    cases h
    exact ⟨rfl, _, rfl, rfl⟩
  | cons k keys ih =>
    cases h with
    | cons hstep hrun =>
      obtain ⟨hkey, hkeys⟩ := List.forall_mem_cons.1 hkeys
      obtain ⟨rfl, b₁, hdelete, rfl⟩ := hstep.of_deletes hidle hkey
      have hidle₁ : { s with buffer := b₁, streak := "" }.pasting = false := hidle
      obtain ⟨rfl, b, hrest, rfl⟩ := ih hidle₁ hkeys hrun
      refine ⟨rfl, b, ?_, ?_⟩
      · rw [List.length_cons, backspaces_succ hdelete, hrest]
      · rw [ite_self, if_neg (List.cons_ne_nil k keys)]

/-! ### Embedded code areas -/

/-- The embedded code area uses all of the events, and its buffer is the same after them as before.
The streak is empty. Other entries stay; the message of an earlier failure may go, as with any
event. -/
def Restores (keymap : Keymap) (w : Embedded) (events : List Event) : Prop :=
  ∃ b w', w.tree.get? bufferName = some (.buffer b) ∧
    w.dispatchAll events = .ok (List.replicate events.length .consumed, w') ∧
    w'.tree.get? bufferName = some (.buffer b) ∧ w'.tree.get? streakName = some (.string "") ∧
    ∀ name : String, name ≠ streakName →
      (name = errorName → keymap = .none ∨ w.tree.get? errorName = none) →
      w'.tree.get? name = w.tree.get? name

theorem Live.restores (h : Live keymap w s) (hidle : s.pasting = false) (hplain : s.Plain)
    {typing deleting : List Key} (hne : text ≠ "") (htyping : Types typing text)
    (hlength : deleting.length = text.length) (hdeleting : ∀ k ∈ deleting, deletes k = true) :
    Restores keymap w ((typing ++ deleting).map .key) := by
  obtain ⟨actions, w', s', hdispatch, hrun, hlive, hkeeps⟩ :=
    exists_dispatchAll h ((typing ++ deleting).map .key)
  rw [List.map_append] at hrun
  obtain ⟨_, _, _, rfl, hfirst, hsecond⟩ := hrun.exists_of_append
  obtain ⟨rfl, b₁, streak, hinsert, rfl⟩ := hfirst.of_typing h.valid hidle hplain htyping
  have hidle₁ : { s with buffer := b₁, streak := streak }.pasting = false := hidle
  obtain ⟨rfl, b, hdelete, rfl⟩ := hsecond.of_deleting hidle₁ hdeleting
  obtain rfl : s.buffer = b := by
    rw [hlength, backspaces_of_insert h.valid hinsert] at hdelete
    exact Except.ok.inj hdelete
  -- only a deletion empties the streak, and there is one
  have hsome : deleting ≠ [] := by
    rintro rfl
    exact hne (String.length_eq_zero_iff.1 hlength.symm)
  have hstreak := hlive.holds.streak
  dsimp only at hstreak
  rw [if_neg hsome] at hstreak
  refine ⟨s.buffer, w', h.holds.buffer, ?_, hlive.holds.buffer, hstreak, ?_⟩
  · rw [hdispatch, ← List.replicate_add, List.length_map, List.length_append]
  · intro name hneStreak herror
    exact h.holds.get?_eq hlive.holds (fun hother => hkeeps name hother herror) (fun _ => rfl)
      (absurd · hneStreak) (fun _ => rfl) (fun _ => rfl)

/-- **Deleting undoes typing.** In a valid buffer, as many deletions as a text has characters undo
the insertion of the text. And however a code area got where it is, if no paste is in progress and
there are no abbreviations, then keys that type a text and as many keys that delete are all used,
and leave the buffer as it was and the streak empty. -/
theorem deleting_undoes_typing :
    (∀ (b : CodeBuffer) (text : String), b.Valid →
      ∃ b₁, b.insert text = .ok b₁ ∧ b₁.backspaces text.length = .ok b) ∧
    ∀ (keymap : Keymap) (w : Embedded) (text : String) (typing deleting : List Key),
      Reachable keymap w → w.tree.get? pastingName = some (.bool false) →
      (∀ name ∈ [simpleName, commandName, smallWordName],
        w.tree.get? name = some (.abbreviations {})) →
      text ≠ "" → Types typing text → deleting.length = text.length →
      (∀ k ∈ deleting, deletes k = true) → Restores keymap w ((typing ++ deleting).map .key) := by
  refine ⟨fun b text hvalid => ?_, ?_⟩
  · obtain ⟨b₁, hinsert, -⟩ := exists_insert hvalid text
    exact ⟨b₁, hinsert, backspaces_of_insert hvalid hinsert⟩
  · intro keymap w text typing deleting hreachable hidle htables hne htyping hlength hdeleting
    obtain ⟨s, hlive⟩ := hreachable.exists_live
    have hpasting : s.pasting = false := by
      have hentry := hlive.holds.pasting.symm.trans hidle
      simpa using hentry
    exact hlive.restores hpasting (hlive.holds.plain htables) hne htyping hlength hdeleting

theorem deleting_undoes_typing_accented :
    ∃ w, Embedded.start Keymap.movement.application
        (.ofList [(bufferName, .buffer (.ofContent "né" 1))]) = .ok w ∧
      Restores .movement w (([Key.typed 'ü', Key.typed '€'] ++
        [Key.bare .backspace, Key.control 'h']).map .key) := by
  have hconfigured : Configured (.ofList [(bufferName, .buffer (.ofContent "né" 1))])
      { buffer := .ofContent "né" 1 } := by
    constructor <;> rfl
  have hbuilt : Built (.ofContent "né" 1) := .inl ⟨"né", 1, rfl⟩
  obtain ⟨w, hstart, htree, -⟩ :=
    exists_start .movement hconfigured hbuilt.valid Highlighter.faithful_plain
  have hreachable : Reachable .movement w := ⟨_, _, w, [], [], hconfigured, hbuilt,
    Highlighter.faithful_plain, hstart, rfl⟩
  have hidle : w.tree.get? pastingName = some (.bool false) := by
    rw [Embedded.tree, htree]
    exact hconfigured.pasting
  have htables : ∀ name ∈ [simpleName, commandName, smallWordName],
      w.tree.get? name = some (.abbreviations {}) := by
    rw [Embedded.tree, htree]
    simpa using ⟨hconfigured.simple, hconfigured.command, hconfigured.smallWord⟩
  have hinsert : ∀ c ∈ "ü€".toList, isInsertable c = true := List.all_eq_true.1 (by decide)
  have htyping : Types [Key.typed 'ü', Key.typed '€'] "ü€" := types_typed hinsert
  exact ⟨w, hstart, deleting_undoes_typing.2 .movement w "ü€" _ _ hreachable hidle htables
    (by decide) htyping rfl (by decide)⟩

end CodeArea

end TerminalUI
