import TerminalUI.Proofs.CodeArea.Streak

/-!
# Plain editing

A draft is what a code area without abbreviations comes down to when its keys for editing have their
meaning: an edited text as two stacks that meet at the dot, and the paste in progress. No entry of a
state tree, layer of a handler or hook is left in it.

* `Draft.next` : the rules of plain editing, by event;
* `Draft.ofEvents` : those rules over any events, from an empty text on;
* `Draft.unsubmitted_or` : either none of the events submits, or there is a first one that does;
* `Draft.apply_buffer` : a movement of a buffer, which counts bytes, is that of the draft;
* `Draft.Matches.submitted`, `Draft.Matches.next` : each step of the code area is that of the draft.
-/

namespace TerminalUI

namespace CodeArea

open CodeBuffer

/-- A text that is edited. -/
structure Draft where
  /-- The characters before the dot, last first. -/
  before : List Char := []
  /-- The characters after the dot. -/
  after : List Char := []
  /-- The characters of the paste in progress, last first. -/
  paste : Option (List Char) := none
  deriving DecidableEq, Repr

namespace Draft

/-! ### The rules -/

/-- The whole text. -/
def text (d : Draft) : String := String.ofList (d.before.reverse ++ d.after)

/-- The draft with the dot moved. -/
def move (d : Draft) : Movement → Draft
  | .left => match d.before with
    | [] => d
    | c :: before => { d with before, after := c :: d.after }
  | .right => match d.after with
    | [] => d
    | c :: after => { d with before := c :: d.before, after }
  | .lineStart =>
    { d with
      before := d.before.dropWhile (· ≠ '\n')
      after := (d.before.takeWhile (· ≠ '\n')).reverse ++ d.after }
  | .lineEnd =>
    { d with
      before := (d.after.takeWhile (· ≠ '\n')).reverse ++ d.before
      after := d.after.dropWhile (· ≠ '\n') }

/-- The draft after a key outside of a paste: Backspace and Ctrl-H delete a character, Left, Right,
Home and End move the dot, and a literal that can be inserted is. -/
def press (d : Draft) (k : Key) : Draft :=
  if k = .bare .backspace ∨ k = .control 'h' ∨ k = .control 'H' then
    { d with before := d.before.tail }
  else if k = .bare .left then d.move .left
  else if k = .bare .right then d.move .right
  else if k = .bare .home then d.move .lineStart
  else if k = .bare .end then d.move .lineEnd
  else match k.literal? with
    | some c => if isInsertable c then { d with before := c :: d.before } else d
    | none => d

/-- The draft after an event. A paste collects the literals of its keys and inserts them at its end;
its start drops what an unfinished one has collected. -/
def next (d : Draft) : Event → Draft
  | .paste true => { d with paste := some [] }
  | .paste false => { d with before := d.paste.getD [] ++ d.before, paste := none }
  | .key k => match d.paste with
    | some collected => { d with paste := some (k.literal?.toList ++ collected) }
    | none => d.press k
  | .resize .. => d

/-- The draft after events, from an empty text on. -/
def ofEvents (events : List Event) : Draft := events.foldl next {}

/-- A letter is typed in front of another one, and a paste with a line break in it goes between
them. -/
example : (ofEvents [.key (.typed 's'), .key (.bare .home), .key (.typed 'l'), .paste true,
    .key (.bare .enter), .paste false]).text = "l\ns" := by
  decide

/-- Does the event submit the draft? Enter, Esc and Ctrl-[ do, outside of a paste. -/
def submits (d : Draft) (event : Event) : Bool :=
  d.paste.isNone &&
    (event = .key (.bare .enter) || event = .key (.bare .escape) || event = .key (.control '['))

/-- None of the events submits, from the draft on. -/
def Unsubmitted (d : Draft) : List Event → Prop
  | [] => True
  | event :: events => d.submits event = false ∧ (d.next event).Unsubmitted events

/-- Either none of the events submits, or there is a first one that does. -/
theorem unsubmitted_or (d : Draft) (events : List Event) :
    d.Unsubmitted events ∨ ∃ before event later, events = before ++ event :: later ∧
      d.Unsubmitted before ∧ (before.foldl next d).submits event = true := by
  induction events generalizing d with
  | nil => exact .inl trivial
  | cons event events ih =>
    cases hsubmits : d.submits event with
    | true => exact .inr ⟨[], event, events, rfl, trivial, hsubmits⟩
    | false =>
      rcases ih (d.next event) with h | ⟨before, first, later, rfl, h, hfirst⟩
      · exact .inl ⟨hsubmits, h⟩
      · exact .inr ⟨event :: before, first, later, rfl, ⟨hsubmits, h⟩, hfirst⟩

/-! ### Buffers -/

/-- The text and the dot as a buffer. -/
def buffer (d : Draft) : CodeBuffer :=
  ofParts (.ofList d.before.reverse) (.ofList d.after)

variable {d : Draft} {k : Key} {event : Event} {action : Action} {s s' : State}

theorem content_buffer (d : Draft) : d.buffer.content = d.text :=
  String.ofList_append.symm

theorem buffer_push (d : Draft) (c : Char) :
    ofParts ((String.ofList d.before.reverse).push c) (.ofList d.after) =
      { d with before := c :: d.before }.buffer := by
  refine ofParts_inj.2 ⟨String.toList_inj.1 ?_, rfl⟩
  simp

theorem buffer_tail (d : Draft) :
    ofParts (.ofList (String.ofList d.before.reverse).toList.dropLast) (.ofList d.after) =
      { d with before := d.before.tail }.buffer := by
  simp [buffer]

theorem buffer_append (d : Draft) (pasted : List Char) :
    ofParts (String.ofList d.before.reverse ++ String.ofList pasted.reverse) (.ofList d.after) =
      { d with before := pasted ++ d.before }.buffer := by
  simp [buffer, ← String.ofList_append]

theorem text_move (d : Draft) (m : Movement) : (d.move m).text = d.text := by
  have hparts (cs : List Char) : cs.takeWhile (· ≠ '\n') ++ cs.dropWhile (· ≠ '\n') = cs :=
    List.takeWhile_append_dropWhile
  obtain ⟨before, after, paste⟩ := d
  unfold move text
  cases m with
  | left => cases before <;> simp
  | right => cases after <;> simp
  | lineStart =>
    dsimp only
    rw [← List.append_assoc, ← List.reverse_append, hparts]
  | lineEnd =>
    dsimp only
    rw [List.reverse_append, List.reverse_reverse, List.append_assoc, hparts]

theorem size_move (d : Draft) (m : Movement) :
    Offset.size (d.move m).before.reverse =
      m.target (Offset.size d.before.reverse) d.before.reverse d.after := by
  obtain ⟨before, after, paste⟩ := d
  unfold Movement.target move
  cases m with
  | left => cases before <;> simp [Offset.size]
  | right => cases after <;> simp [Offset.size]
  | lineStart =>
    have hsplit := List.takeWhile_append_dropWhile (p := (· ≠ '\n')) (l := before)
    have hsize := congrArg Offset.size hsplit
    simp only [Offset.size, total_append] at hsize
    simp only [Movement.bytesInLine, Offset.size, total_reverse, List.reverse_reverse]
    omega
  | lineEnd => simp [Movement.bytesInLine, Offset.size]

/-- A movement of the buffer is that of the draft. -/
theorem apply_buffer (d : Draft) (m : Movement) : m.apply d.buffer = .ok (d.move m).buffer := by
  refine m.apply_ofParts_eq ?_ ?_
  · exact (content_buffer (d.move m)).trans ((text_move d m).trans (content_buffer d).symm)
  · rw [byteLength_ofList, byteLength_ofList, String.toList_ofList, String.toList_ofList, size_move]

/-! ### States that a draft tells of -/

/-- The state of a code area without abbreviations, as far as the draft tells of it. -/
structure Matches (d : Draft) (s : State) : Prop where
  buffer_eq : s.buffer = d.buffer
  simple_eq : s.simple = {}
  command_eq : s.command = {}
  smallWord_eq : s.smallWord = {}
  highlighter_eq : s.highlighter = .plain
  quote_eq : s.quote = false
  pasting_eq : s.pasting = d.paste.isSome
  pasted_eq : s.pasted = .ofList (d.paste.getD []).reverse

theorem Matches.setBuffer (h : d.Matches s) (d' : Draft) (hpaste : d'.paste = d.paste)
    (streak : String) : d'.Matches { s with buffer := d'.buffer, streak := streak } where
  buffer_eq := rfl
  simple_eq := h.simple_eq
  command_eq := h.command_eq
  smallWord_eq := h.smallWord_eq
  highlighter_eq := h.highlighter_eq
  quote_eq := h.quote_eq
  pasting_eq := hpaste ▸ h.pasting_eq
  pasted_eq := hpaste ▸ h.pasted_eq

theorem paste_move (d : Draft) (m : Movement) : (d.move m).paste = d.paste := by
  obtain ⟨before, after, paste⟩ := d
  cases m with
  | left => cases before <;> rfl
  | right => cases after <;> rfl
  | _ => rfl

theorem Matches.paste_eq_none (h : d.Matches s) (hpasting : s.pasting = false) :
    d.paste = none := by
  rw [h.pasting_eq] at hpasting
  simpa using hpasting

/-- Without abbreviations, nothing expands. -/
theorem Matches.not_expands (h : d.Matches s) {before after streak : String} {c : Char}
    {b : CodeBuffer} : ¬ Expands s before after streak c b := by
  intro hexpands
  cases hexpands with
  | simple hmem => simp [h.simple_eq] at hmem
  | command hmem => simp [h.command_eq] at hmem
  | smallWord hmem => simp [h.smallWord_eq] at hmem

/-- The keys are told apart by what they do in the code area and in its hook. -/
theorem press_eq (d : Draft) (k : Key) :
    d.press k =
      if deletes k then { d with before := d.before.tail }
      else match Movement.ofKey? k with
        | some m => d.move m
        | none => match k.literal? with
          | some c => if isInsertable c then { d with before := c :: d.before } else d
          | none => d := by
  have hdeletes :
      (k = .bare .backspace ∨ k = .control 'h' ∨ k = .control 'H') ↔ deletes k = true := by
    simp [deletes, Key.isBare, or_assoc]
  simp only [press, hdeletes, Movement.ofKey?, Key.isBare, decide_eq_true_eq]
  congr 1
  split
  · rfl
  · split
    · rfl
    · split
      · rfl
      · split <;> rfl

theorem press_of_deletes (hkey : deletes k = true) :
    d.press k = { d with before := d.before.tail } := by
  rw [press_eq, if_pos hkey]

theorem press_of_movement {m : Movement} (hdeletes : deletes k = false)
    (hkey : Movement.ofKey? k = some m) : d.press k = d.move m := by
  rw [press_eq, if_neg (by simp [hdeletes]), hkey]

theorem press_of_literal {c : Char} (hkey : k.literal? = some c) (hinsert : isInsertable c = true) :
    d.press k = { d with before := c :: d.before } := by
  have hdeletes : ¬ deletes k = true := by
    intro hdeletes
    rw [literal?_of_deletes hdeletes] at hkey
    cases hkey
  have hmovement : Movement.ofKey? k = none := by
    cases hmovement : Movement.ofKey? k with
    | none => rfl
    | some m =>
      rw [literal?_of_ofKey? hmovement] at hkey
      cases hkey
  rw [press_eq, if_neg hdeletes, hmovement]
  simp only [hkey, hinsert, if_true]

theorem press_of_unused (hdeletes : deletes k = false) (hmovement : Movement.ofKey? k = none)
    (hinsert : k.literal?.any isInsertable = false) : d.press k = d := by
  rw [press_eq, if_neg (by simp [hdeletes]), hmovement]
  cases hkey : k.literal? with
  | none => rfl
  | some c =>
    rw [hkey, Option.any_some] at hinsert
    simp only [hinsert, Bool.false_eq_true, if_false]

/-! ### Steps -/

theorem submits_eq (d : Draft) (event : Event) :
    d.submits event = (d.paste.isNone && Keymap.submission.submits event) := by
  cases event <;> simp [submits, Keymap.submits, Event.key?, Hook.submits, Key.isBare]

/-- A step of the code area for an event that submits. -/
theorem Matches.submitted (h : d.Matches s) (hsubmits : d.submits event = true)
    (hstep : Step .submission s event action s') : action = .exit ∧ s' = s := by
  rw [submits_eq, Bool.and_eq_true, Option.isNone_iff_eq_none] at hsubmits
  obtain ⟨hpaste, hsubmits⟩ := hsubmits
  have hidle : ¬ s.pasting = true := by simp [h.pasting_eq, hpaste]
  cases hstep with
  | submitted => exact ⟨rfl, rfl⟩
  | moved hbusy => exact absurd (hbusy hsubmits) hidle
  | handled hbusy => exact absurd (hbusy hsubmits) hidle

theorem Matches.next_of_typing (h : d.Matches s) (hpasting : s.pasting = false)
    (htyping : Typing s k action s')
    (hmovement : action = .unused → Movement.ofKey? k = none) :
    action ≠ .exit ∧ (d.next (.key k)).Matches s' := by
  have hnext : d.next (.key k) = d.press k := by
    rw [Draft.next, h.paste_eq_none hpasting]
  rw [hnext]
  cases htyping with
  | deleted hkey hbuffer =>
    obtain ⟨rfl, rfl⟩ := ofParts_inj.1 (hbuffer.symm.trans h.buffer_eq)
    rw [press_of_deletes hkey, buffer_tail]
    exact ⟨nofun, h.setBuffer { d with before := d.before.tail } rfl ""⟩
  | @typed c _ _ hkey hinsert hbuffer =>
    obtain ⟨rfl, rfl⟩ := ofParts_inj.1 (hbuffer.symm.trans h.buffer_eq)
    rw [press_of_literal hkey hinsert, buffer_push]
    exact ⟨nofun, h.setBuffer { d with before := c :: d.before } rfl _⟩
  | expanded _ _ _ hexpands => exact absurd hexpands h.not_expands
  | unused hkey hinsert =>
    rw [press_of_unused hkey (hmovement rfl) hinsert]
    exact ⟨nofun, h.buffer_eq ▸ h.setBuffer d rfl ""⟩

theorem Matches.next_of_handled (h : d.Matches s) (hhandled : Handled s event action s')
    (hmovement : action = .unused → Keymap.submission.movement? event = none) :
    action ≠ .exit ∧ (d.next event).Matches s' := by
  cases hhandled with
  | resized => exact ⟨nofun, h⟩
  | pasteStarted => exact ⟨nofun, { h with pasting_eq := rfl, pasted_eq := rfl }⟩
  | pasteEnded hbuffer =>
    obtain ⟨rfl, rfl⟩ := ofParts_inj.1 (hbuffer.symm.trans h.buffer_eq)
    have hinsertion : s.insertion s.pasted = .ofList (d.paste.getD []).reverse := by
      rw [State.insertion, h.quote_eq, h.pasted_eq]
      rfl
    rw [hinsertion, buffer_append]
    exact ⟨nofun, { h with buffer_eq := rfl, pasting_eq := rfl, pasted_eq := rfl }⟩
  | collected k hpasting =>
    rw [h.pasting_eq, Option.isSome_iff_exists] at hpasting
    obtain ⟨collected, hpaste⟩ := hpasting
    have hnext : d.next (.key k) = { d with paste := some (k.literal?.toList ++ collected) } := by
      rw [Draft.next, hpaste]
    have hpasted : s.pasted ++ literalText k =
        .ofList (k.literal?.toList ++ collected).reverse := by
      rw [h.pasted_eq, hpaste, literalText]
      cases k.literal? <;> simp
    rw [hnext, hpasted]
    exact ⟨nofun, { h with pasting_eq := by rw [h.pasting_eq, hpaste]; rfl, pasted_eq := rfl }⟩
  | typing hpasting htyping =>
    exact h.next_of_typing hpasting htyping hmovement

/-- **A step of the code area is that of the draft**, for an event that does not submit. -/
theorem Matches.next (h : d.Matches s) (hsubmits : d.submits event = false)
    (hstep : Step .submission s event action s') : action ≠ .exit ∧ (d.next event).Matches s' := by
  cases hstep with
  | submitted hkey hpasting =>
    simp [submits_eq, hkey, h.paste_eq_none hpasting] at hsubmits
  | @moved _ m _ _ hhandled hmovement hb =>
    cases hhandled with
    | resized => cases hmovement
    | @typing k _ _ hpasting htyping =>
      cases htyping with
      | unused hdeletes =>
        rw [h.buffer_eq, apply_buffer, Except.ok.injEq] at hb
        have hnext : d.next (.key k) = d.move m := by
          rw [Draft.next, h.paste_eq_none hpasting]
          exact press_of_movement hdeletes hmovement
        rw [← hb, hnext]
        exact ⟨nofun, h.setBuffer (d.move m) (d.paste_move m) ""⟩
  | handled _ hmovement hhandled => exact h.next_of_handled hhandled hmovement

end Draft

end CodeArea

end TerminalUI
