import TerminalUI.Proofs.CodeArea.Streak
import TerminalUI.Proofs.Demo.Booking

/-!
# The focus and the status of the flight booker

However the flight booker got where it is, its focus is on one of the four parts. An event moves it
by one part at most, and changes the text about the booking only if it presses the focused button
(`Flight.Contents.Follows`). While a paste into a date goes on, nothing moves the focus or books
(`Flight.Step.pasting`).
-/

namespace TerminalUI

/-- From the start of a paste to its end, a code area takes every key. -/
theorem CodeArea.Step.of_pasting {keymap : Keymap} {s s' : State} {event : Event} {action : Action}
    (h : Step keymap s event action s') (hpasting : event = .paste true ∨ s.pasting = true)
    (hend : event ≠ .paste false) : s'.pasting = true ∧ (action = .unused → event.key? = none) := by
  have hkey (k : Key) (hk : event = .key k) : s.pasting = true := by
    simpa [hk] using hpasting
  cases h with
  | submitted hsubmits hidle =>
    cases event with
    | key k => simp [hkey k rfl] at hidle
    | _ => simp [Keymap.submits, Event.key?] at hsubmits
  | moved _ hhandled hmovement =>
    obtain ⟨k, hk, -, hidle, -⟩ := hhandled.of_movement hmovement
    simp [hkey k hk] at hidle
  | handled _ _ hhandled =>
    cases hhandled with
    | resized => exact ⟨hpasting.resolve_left (by simp), fun _ => rfl⟩
    | pasteStarted => exact ⟨rfl, by simp⟩
    | pasteEnded => exact absurd rfl hend
    | collected _ hcollecting => exact ⟨hcollecting, by simp⟩
    | @typing k _ _ hidle => simp [hkey k rfl] at hidle

namespace Flight

/-- What a flight booker keeps: the text about the booking, the focus, the selected trip type, and
the buffers of the dates. -/
structure Contents where
  status : String
  focus : Nat
  selected : Nat
  outbound : CodeBuffer
  inbound : CodeBuffer

/-- The tree has the contents. -/
structure Has (w : Embedded) (x : Contents) : Prop where
  status : w.tree.resolve (Path.root.child statusName) = some (.string x.status)
  focus : w.tree.resolve (Path.root.child focusName) = some (.index x.focus)
  selected : w.tree.resolve (ListBox.selected (Path.root.child typeName)).path =
    some (.index x.selected)
  outbound : w.tree.resolve (CodeArea.buffer (Path.root.child outboundName)).path =
    some (.buffer x.outbound)
  inbound : w.tree.resolve (CodeArea.buffer (Path.root.child inboundName)).path =
    some (.buffer x.inbound)

/-- What an event that is reported as an action makes of the focus and the text about the booking:
the focus moves by one part at most, and the text is that about the trip type and the dates if the
button is pressed, and stays otherwise. -/
structure Contents.Follows (x : Contents) (event : Event) (action : Action) (x' : Contents) :
    Prop where
  focus_le : x'.focus ≤ x.focus + 1
  le_focus : x.focus ≤ x'.focus + 1
  booked : x.focus = 3 → event.Presses → action = .consumed ∧
    x'.status = bookingOf x.selected x.outbound.content x.inbound.content
  kept : ¬ (x.focus = 3 ∧ event.Presses) → x'.status = x.status

variable {keymap : CodeArea.Keymap} {s s' : State} {w : Embedded} {event : Event}
  {action : Action} {date : Date} {events : List Event} {actions : List Action}

/-! ### The contents of a state -/

/-- The contents of a state. -/
def State.contents (s : State) : Contents where
  status := s.status
  focus := s.focus.index
  selected := s.selected
  outbound := (s.field .outbound).buffer
  inbound := (s.field .inbound).buffer

theorem Ready.has (h : Ready .root w.tree s) : Has w s.contents :=
  ⟨h.status, h.focus, h.type.ready.selected, (h.field .outbound).resolve_buffer,
    (h.field .inbound).resolve_buffer⟩

theorem Part.index_eq_three_iff {part : Part} : part.index = 3 ↔ part = .book :=
  ⟨fun h => Part.eq_of_index_eq (h.trans (show 3 = Part.book.index from rfl)), fun h => h ▸ rfl⟩

theorem Part.exists_date_of_index {part : Part} (h : part.index = 1 ∨ part.index = 2) :
    ∃ date, part = .date date := by
  rcases part with _ | date | _
  · exact absurd h (by decide)
  · exact ⟨date, rfl⟩
  · exact absurd h (by decide)

/-! ### One event -/

theorem Reacts.focus_eq (h : Reacts keymap s event action s') : s'.focus = s.focus := by
  cases h <;> rfl

/-- A press of the focused button books. -/
theorem Reacts.of_presses (h : Reacts keymap s event action s') (hfocus : s.focus = .book)
    (hpresses : event.Presses) : action = .consumed ∧ s'.status = s.booking := by
  cases h with
  | selected hother => simp [hfocus] at hother
  | edited hother => simp [hfocus] at hother
  | booked => exact ⟨rfl, rfl⟩
  | idle _ hidle => exact absurd hpresses hidle

theorem Reacts.status_eq (h : Reacts keymap s event action s')
    (hpresses : ¬ (s.focus = .book ∧ event.Presses)) : s'.status = s.status := by
  cases h with
  | booked hfocus hevent => exact absurd ⟨hfocus, hevent⟩ hpresses
  | _ => rfl

/-- A part has reacted, and the focus may move if it had no use for the event. -/
theorem Step.exists_reacts (h : Step keymap s event action s') :
    ∃ reaction s₁, Reacts keymap s event reaction s₁ ∧ s'.status = s₁.status ∧
      (reaction = action ∧ s' = s₁ ∨ reaction = .unused ∧
        (isForward event = true ∧ s'.focus.index = s.focus.index + 1 ∨
          isBackward event = true ∧ s'.focus.index + 1 = s.focus.index)) := by
  cases h with
  | taken hreacts => exact ⟨_, _, hreacts, rfl, .inl ⟨rfl, rfl⟩⟩
  | forward hreacts hevent hpart => exact ⟨_, _, hreacts, rfl, .inr ⟨rfl, .inl ⟨hevent, hpart⟩⟩⟩
  | backward hreacts hevent hpart => exact ⟨_, _, hreacts, rfl, .inr ⟨rfl, .inr ⟨hevent, hpart⟩⟩⟩
  | unused hreacts => exact ⟨_, _, hreacts, rfl, .inl ⟨rfl, rfl⟩⟩

/-- **What a step makes of the focus and the text about the booking.** -/
theorem Step.follows (h : Step keymap s event action s') :
    s.contents.Follows event action s'.contents := by
  obtain ⟨reaction, s₁, hreacts, hstatus, hrest⟩ := h.exists_reacts
  have hmoved : s'.focus.index ≤ s.focus.index + 1 ∧ s.focus.index ≤ s'.focus.index + 1 := by
    rcases hrest with ⟨-, rfl⟩ | ⟨-, ⟨-, hindex⟩ | ⟨-, hindex⟩⟩
    · rw [hreacts.focus_eq]
      exact ⟨Nat.le_succ _, Nat.le_succ _⟩
    · omega
    · omega
  refine ⟨hmoved.1, hmoved.2, fun hfocus hpresses => ?_, fun hpresses => ?_⟩
  · obtain ⟨hconsumed, hbooked⟩ := hreacts.of_presses (Part.index_eq_three_iff.1 hfocus) hpresses
    rcases hrest with ⟨rfl, -⟩ | ⟨hunused, -⟩
    · exact ⟨hconsumed, hstatus.trans hbooked⟩
    · rw [hunused] at hconsumed
      cases hconsumed
  · refine hstatus.trans (hreacts.status_eq fun hbook => hpresses ⟨?_, hbook.2⟩)
    exact Part.index_eq_three_iff.2 hbook.1

/-! ### Pastes -/

theorem isSome_key?_of_moves (h : isForward event = true ∨ isBackward event = true) :
    event.key?.isSome := by
  cases event with
  | key k => rfl
  | paste starts => simp [isForward, isBackward, Event.isBare, Event.isKey] at h
  | resize rows columns => simp [isForward, isBackward, Event.isBare, Event.isKey] at h

/-- **While a paste into a date goes on, the focus and the text about the booking stay.** -/
theorem Step.pasting (h : Step keymap s event action s') (hfocus : s.focus = .date date)
    (hpasting : event = .paste true ∨ (s.field date).pasting = true)
    (hend : event ≠ .paste false) :
    s'.focus = .date date ∧ (s'.field date).pasting = true ∧ s'.status = s.status := by
  obtain ⟨reaction, s₁, hreacts, -, hrest⟩ := h.exists_reacts
  cases hreacts with
  | @edited date' _ x hdate hfield =>
    obtain rfl : date = date' := Part.date.inj (hfocus.symm.trans hdate)
    obtain ⟨hpasting', hkey⟩ := hfield.of_pasting hpasting hend
    rcases hrest with ⟨-, rfl⟩ | ⟨hunused, hmoves⟩
    · refine ⟨hfocus, ?_, rfl⟩
      rw [field_set_self]
      exact hpasting'
    · -- only keys move the focus, and the date takes them all
      have hsome := isSome_key?_of_moves (hmoves.imp And.left And.left)
      simp [hkey hunused] at hsome
  | selected hother => simp [hfocus] at hother
  | booked hother => simp [hfocus] at hother
  | idle hother => simp [hfocus] at hother

theorem run_pasting (h : (machine keymap).Run s events actions s') (hfocus : s.focus = .date date)
    (hpasting : (s.field date).pasting = true) (hevents : .paste false ∉ events) :
    s'.focus = .date date ∧ s'.status = s.status := by
  induction h with
  | nil => exact ⟨hfocus, rfl⟩
  | cons hstep _ ih =>
    rw [List.mem_cons, not_or] at hevents
    obtain ⟨hfocus₁, hpasting₁, hstatus⟩ :=
      Step.pasting hstep hfocus (.inr hpasting) (Ne.symm hevents.1)
    obtain ⟨hfocus', hstatus'⟩ := ih hfocus₁ hpasting₁ hevents.2
    exact ⟨hfocus', hstatus'.trans hstatus⟩

/-- A paste that starts in a date leaves the focus and the text about the booking as they are. -/
theorem run_pasteStarted (h : (machine keymap).Run s (.paste true :: events) actions s')
    (hfocus : s.focus = .date date) (hevents : .paste false ∉ events) :
    s'.focus = .date date ∧ s'.status = s.status := by
  cases h with
  | cons hstep hrun =>
    obtain ⟨hfocus₁, hpasting₁, hstatus⟩ := Step.pasting hstep hfocus (.inl rfl) (by decide)
    obtain ⟨hfocus', hstatus'⟩ := run_pasting hrun hfocus₁ hpasting₁ hevents
    exact ⟨hfocus', hstatus'.trans hstatus⟩

/-- **The runs of a flight booker.** Started on the empty tree under any keymap, it deals with any
events, and has the focus on one of the four parts then. The next event moves the focus by one part
at most; it changes the text about the booking only as Space or Enter without modifiers with the
focus on the button, is consumed then, and the text is that about the trip type and the dates. From
the start of a paste with the focus on a date up to the end of the paste, the focus and the text
stay. -/
theorem booker_runs (keymap : CodeArea.Keymap) :
    ∃ w₀, Embedded.start (application keymap) = .ok w₀ ∧ ∀ events, ∃ actions w x,
      w₀.dispatchAll events = .ok (actions, w) ∧ Has w x ∧ x.focus < 4 ∧
      (∀ event, ∃ action w' x', w.dispatch event = .ok (action, w') ∧ Has w' x' ∧
        x.Follows event action x') ∧
      (x.focus = 1 ∨ x.focus = 2 → ∀ pasted, .paste false ∉ pasted → ∃ actions w' x',
        w.dispatchAll (.paste true :: pasted) = .ok (actions, w') ∧ Has w' x' ∧
        x'.focus = x.focus ∧ x'.status = x.status) := by
  obtain ⟨w₀, hstart, hlive₀⟩ := (machine keymap).exists_start
  refine ⟨w₀, hstart, fun events => ?_⟩
  obtain ⟨actions, w, s, hevents, -, hlive⟩ := hlive₀.exists_dispatchAll events
  refine ⟨actions, w, s.contents, hevents, Ready.has hlive.holds, s.focus.index_lt, fun event => ?_,
    fun hfocus pasted hpasted => ?_⟩
  · obtain ⟨action, w', s', hevent, hstep, hlive'⟩ := hlive.exists_dispatch event
    exact ⟨action, w', s'.contents, hevent, Ready.has hlive'.holds, Step.follows hstep⟩
  · obtain ⟨date, hdate⟩ := Part.exists_date_of_index hfocus
    obtain ⟨actions, w', s', hpaste, hrun, hlive'⟩ :=
      hlive.exists_dispatchAll (.paste true :: pasted)
    obtain ⟨hfocus', hstatus⟩ := run_pasteStarted hrun hdate hpasted
    refine ⟨actions, w', s'.contents, hpaste, Ready.has hlive'.holds, ?_, hstatus⟩
    exact congrArg Part.index (hfocus'.trans hdate.symm)

end Flight

end TerminalUI
