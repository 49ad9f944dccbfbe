import TerminalUI.Hook.Editing
import TerminalUI.Proofs.CodeArea.Typing

/-!
# Reactions of a code area

What a code area does with an event, in all of its layers and under the hooks for its editing keys.
`Handled` lists what the handler does, and `Step` what becomes of the event under a `Keymap`. In
every state with a valid buffer there is a step, and the code area takes it
(`exists_leads_handler`); no step makes the buffer invalid (`Step.valid`).
-/

namespace TerminalUI

namespace CodeArea

open CodeBuffer

/-- The text that a key stands for. -/
def literalText (k : Key) : String :=
  match k.literal? with
  | some c => String.singleton c
  | none => ""

/-- What the end of a paste inserts for a text. -/
def State.insertion (s : State) (text : String) : String :=
  if s.quote then ShellWord.quote text else text

/-- What the handler of a code area does with an event. -/
inductive Handled (s : State) : Event → Action → State → Prop where
  | resized (rows columns : Nat) : Handled s (.resize rows columns) .unused s
  | pasteStarted : Handled s (.paste true) .consumed { s with pasting := true, pasted := "" }
  | pasteEnded {before after : String} (hbuffer : s.buffer = ofParts before after) :
    Handled s (.paste false) .consumed
      { s with
        buffer := ofParts (before ++ s.insertion s.pasted) after, pasting := false, pasted := "" }
  | collected (k : Key) (hpasting : s.pasting = true) :
    Handled s (.key k) .consumed { s with pasted := s.pasted ++ literalText k }
  | typing {k : Key} {action : Action} {s' : State} (hpasting : s.pasting = false)
    (htyping : Typing s k action s') : Handled s (.key k) action s'

/-- What moves the dot and submits: no hook, or one of the hooks for the editing keys. -/
inductive Keymap where
  | none | movement | submission
  deriving DecidableEq

namespace Keymap

/-- The hook of a keymap. -/
def hook : Keymap → Option Hook
  | none => Option.none
  | movement => some Hook.movement
  | submission => some Hook.submission

/-- The movement that an event stands for. -/
def movement? (keymap : Keymap) (event : Event) : Option Movement :=
  if keymap = none then Option.none else event.key?.bind Movement.ofKey?

/-- Does the event submit, unless a paste is in progress? -/
def submits (keymap : Keymap) (event : Event) : Bool :=
  keymap = submission && event.key?.any Hook.submits

/-- Other entries stay, except that hooks take the message of an earlier failure away. -/
def Keeps (keymap : Keymap) (m m' : Tree) : Prop :=
  ∀ name, name ∉ writtenNames →
    (name = errorName → keymap = none ∨ m.get? errorName = Option.none) →
    m'.get? name = m.get? name

end Keymap

/-- What becomes of an event: it submits, moves the dot, or only the handler deals with it. -/
inductive Step (keymap : Keymap) (s : State) (event : Event) : Action → State → Prop where
  | submitted (hsubmits : keymap.submits event = true) (hpasting : s.pasting = false) :
    Step keymap s event .exit s
  | moved {s' : State} {movement : Movement} {b : CodeBuffer}
    (hsubmits : keymap.submits event = true → s.pasting = true)
    (hhandled : Handled s event .unused s') (hmovement : keymap.movement? event = some movement)
    (hb : movement.apply s'.buffer = .ok b) :
    Step keymap s event .consumed { s' with buffer := b }
  | handled {action : Action} {s' : State}
    (hsubmits : keymap.submits event = true → s.pasting = true)
    (hmovement : action = .unused → keymap.movement? event = none)
    (hhandled : Handled s event action s') : Step keymap s event action s'

variable {keymap : Keymap} {hook : Option Hook} {level : Path} {m : Tree} {s s' : State}
  {event : Event} {action : Action}

/-! ### Validity -/

theorem Typing.valid {k : Key} (h : Typing s k action s') (hvalid : s.buffer.Valid) :
    s'.buffer.Valid := by
  cases h with
  | deleted => exact valid_ofParts _ _
  | typed => exact valid_ofParts _ _
  | expanded _ _ _ hexpands => cases hexpands <;> exact valid_ofParts _ _
  | unused => exact hvalid

theorem Handled.valid (h : Handled s event action s') (hvalid : s.buffer.Valid) :
    s'.buffer.Valid := by
  cases h with
  | resized => exact hvalid
  | pasteStarted => exact hvalid
  | pasteEnded => exact valid_ofParts _ _
  | collected => exact hvalid
  | typing _ htyping => exact htyping.valid hvalid

/-- **No step makes the buffer invalid.** -/
theorem Step.valid (h : Step keymap s event action s') (hvalid : s.buffer.Valid) :
    s'.buffer.Valid := by
  cases h with
  | submitted => exact hvalid
  | moved _ hhandled _ hb =>
    obtain ⟨before, after, hbuffer⟩ := valid_iff.1 (hhandled.valid hvalid)
    obtain ⟨before', after', -, happly⟩ := Movement.apply_ofParts _ before after
    rw [hbuffer, happly, Except.ok.injEq] at hb
    exact hb ▸ valid_ofParts before' after'
  | handled _ _ hhandled => exact hhandled.valid hvalid

/-! ### The handler -/

theorem leads_finishPaste (h : Holds m s) {before after : String}
    (hbuffer : s.buffer = ofParts before after) :
    Program.Leads hook level (finishPaste (buffer level) (pastes level)) m ()
      (((m.insert bufferName (.buffer (ofParts (before ++ s.insertion s.pasted) after))).insert
        pastingName (.bool false)).insert pastedName (.string "")) := by
  have hinsert : s.buffer.insert (s.insertion s.pasted) =
      .ok (ofParts (before ++ s.insertion s.pasted) after) := by
    rw [hbuffer, insert_ofParts]
  refine .bind (Var.leads_get h.pasted) (.bind (Var.leads_get h.quote) ?_)
  refine .bind (leads_edit h hinsert) (.bind (Var.leads_set false) ?_)
  exact Var.leads_set ""

theorem exists_leads_collect (h : Holds m s) (hpasting : s.pasting = true) (k : Key) :
    ∃ m', Program.Leads hook level (layeredHandler level (.key k)) m .consumed m' ∧
      Holds m' { s with pasted := s.pasted ++ literalText k } ∧ CodeArea.Keeps m m' := by
  have hget : Program.Leads hook level (pastes level).pasting.get m true m :=
    hpasting ▸ Var.leads_get h.pasting
  cases hliteral : k.literal? with
  | some c =>
    refine ⟨_, .bind hget ?_, h.setPasted _, keeps_setPasted m _⟩
    simp only [if_true, hliteral, literalText, ← String.push_eq_append]
    exact .bind (Var.leads_modify h.pasted _) (.pure _)
  | none =>
    refine ⟨m, .bind hget ?_, ?_, .refl m⟩
    · simp only [if_true, hliteral]
      exact .pure _
    · simp only [literalText, hliteral, String.append_empty]
      exact h

theorem exists_leads_layeredHandler (hook : Option Hook) (level : Path) (h : Holds m s)
    (hvalid : s.buffer.Valid) (event : Event) :
    ∃ action s' m', Program.Leads hook level (layeredHandler level event) m action m' ∧
      Handled s event action s' ∧ Holds m' s' ∧ CodeArea.Keeps m m' := by
  cases event with
  | resize rows columns => exact ⟨_, s, m, .pure _, .resized rows columns, h, .refl m⟩
  | paste starts =>
    cases starts with
    | true =>
      refine ⟨_, _, _, ?_, .pasteStarted, (h.setPasting true).setPasted "",
        (keeps_setPasting m true).trans (keeps_setPasted _ "")⟩
      refine .bind (Var.leads_set true) ?_
      exact .bind (Var.leads_set "") (.pure _)
    | false =>
      obtain ⟨before, after, hbuffer⟩ := valid_iff.1 hvalid
      have hfinished := ((h.setBuffer (ofParts (before ++ s.insertion s.pasted) after)).setPasting
        false).setPasted ""
      exact ⟨_, _, _, .bind (leads_finishPaste h hbuffer) (.pure _), .pasteEnded hbuffer,
        hfinished, ((keeps_setBuffer m _).trans (keeps_setPasting _ false)).trans
          (keeps_setPasted _ "")⟩
  | key k =>
    cases hpasting : s.pasting with
    | true =>
      obtain ⟨m', hleads, hholds, hkeeps⟩ := exists_leads_collect h hpasting k
      exact ⟨_, _, m', hleads, .collected k hpasting, hholds, hkeeps⟩
    | false =>
      obtain ⟨action, s', m', hleads, htyping, hholds, hkeeps⟩ :=
        exists_leads_typingHandler h hvalid k
      refine ⟨action, s', m', ?_, .typing hpasting htyping, hholds, hkeeps⟩
      refine .bind (Var.leads_get h.pasting) ?_
      rw [hpasting]
      exact hleads

/-! ### The hooks -/

theorem leads_move (h : Holds m s) {movement : Movement} {b : CodeBuffer}
    (hb : movement.apply s.buffer = .ok b) :
    UI.Leads level (Hook.move movement level) m (.ok .consumed)
      (m.insert bufferName (.buffer b)) := by
  have hget : Program.Leads none level (buffer level).tryGet m (.ok s.buffer) m :=
    Var.leads_tryGet h.buffer
  have hmove : Program.Leads none level (Program.ofExcept (movement.apply s.buffer)) m b m :=
    .ofExcept hb
  have hset : Program.Leads none level ((buffer level).set b) m ()
      (m.insert bufferName (.buffer b)) := Var.leads_set b
  exact .bind hget (.bind hmove (.bind hset (.pure _)))

/-- What the hook for movements makes of an event that the handler has dealt with. -/
theorem exists_leads_movement (handler : Event → UI Action) {m₁ : Tree} {s₁ : State}
    (hleads : UI.Leads level (handler event) m action m₁) (hhandled : Handled s event action s₁)
    (h : Holds m₁ s₁) (hvalid : s₁.buffer.Valid) (hkeymap : keymap ≠ .none)
    (hsubmits : keymap.submits event = true → s.pasting = true) :
    ∃ action' s' m', UI.Leads level (Hook.movement event level tag handler) m (.ok action') m' ∧
      Step keymap s event action' s' ∧ Holds m' s' ∧ CodeArea.Keeps m₁ m' := by
  have hmovement : keymap.movement? event = event.key?.bind Movement.ofKey? := if_neg hkeymap
  -- the hook leaves alone what the handler has a use for
  by_cases haction : action = .unused
  · subst haction
    cases hkey : event.key?.bind Movement.ofKey? with
    | none =>
      refine ⟨.unused, s₁, m₁, .bind hleads ?_, .handled hsubmits (fun _ => ?_) hhandled, h,
        .refl m₁⟩
      · simp only [hkey]
        exact .pure _
      · rw [hmovement, hkey]
    | some movement =>
      obtain ⟨before, after, hbuffer⟩ := valid_iff.1 hvalid
      obtain ⟨before', after', -, happly⟩ := movement.apply_ofParts before after
      rw [← hbuffer] at happly
      refine ⟨.consumed, _, _, .bind hleads ?_,
        .moved hsubmits hhandled (hmovement.trans hkey) happly,
        h.setBuffer (ofParts before' after'), keeps_setBuffer m₁ _⟩
      simp only [hkey]
      exact leads_move h happly
  · refine ⟨action, s₁, m₁, .bind hleads ?_,
      .handled hsubmits (fun h => absurd h haction) hhandled, h, .refl m₁⟩
    rw [if_pos (by simp [haction])]
    exact .pure _

theorem exists_leads_submission (handler : Event → UI Action) {m₁ : Tree} {s₁ : State}
    (hleads : UI.Leads level (handler event) m action m₁) (hhandled : Handled s event action s₁)
    (h₀ : Holds m s) (h : Holds m₁ s₁) (hkeeps : CodeArea.Keeps m m₁)
    (hvalid : s₁.buffer.Valid) :
    ∃ action' s' m', UI.Leads level (Hook.submission event level tag handler) m (.ok action')
        m' ∧
      Step .submission s event action' s' ∧ Holds m' s' ∧ CodeArea.Keeps m m' := by
  have hpasting : UI.Leads level ((pasting level).getD false).perform m s.pasting m :=
    Var.leads_getD h₀.pasting false
  have hkeymap : Keymap.submission ≠ .none := by decide
  by_cases hsubmits : Keymap.submission.submits event = true
  · have hkey : event.key?.any Hook.submits = true := by simpa [Keymap.submits] using hsubmits
    unfold Hook.submission
    rw [if_pos (by simp [hkey])]
    -- only this hook asks for the state of pastes, and only for a key that submits
    cases hs : s.pasting with
    | false =>
      rw [hs] at hpasting
      exact ⟨.exit, s, m, .bind hpasting (.pure _), .submitted hsubmits hs, h₀, .refl m⟩
    | true =>
      rw [hs] at hpasting
      obtain ⟨action', s', m', hmovement, hstep, hholds, hkeeps'⟩ :=
        exists_leads_movement handler hleads hhandled h hvalid hkeymap fun _ => hs
      exact ⟨action', s', m', .bind hpasting hmovement, hstep, hholds, hkeeps.trans hkeeps'⟩
  · have hkey : event.key?.any Hook.submits = false := by
      simpa [Keymap.submits] using hsubmits
    obtain ⟨action', s', m', hmovement, hstep, hholds, hkeeps'⟩ :=
      exists_leads_movement handler hleads hhandled h hvalid hkeymap (absurd · hsubmits)
    refine ⟨action', s', m', ?_, hstep, hholds, hkeeps.trans hkeeps'⟩
    unfold Hook.submission
    rw [if_neg (by simp [hkey])]
    exact hmovement

theorem Keeps.withoutError {m' : Tree} (h : CodeArea.Keeps m m') (hkeymap : keymap ≠ .none) :
    keymap.Keeps m m'.withoutError := by
  intro name hname herror
  rw [Tree.get?_withoutError]
  by_cases hne : name = errorName
  · rw [if_pos hne, hne, (herror hne).resolve_left hkeymap]
  · rw [if_neg hne]
    exact h name hname

/-- **A code area takes a step** for every event, and is no fault. -/
theorem exists_leads_handler (keymap : Keymap) (h : Holds m s) (hvalid : s.buffer.Valid)
    (event : Event) :
    ∃ action s' m', Program.Leads keymap.hook level (handler level event) m action m' ∧
      Step keymap s event action s' ∧ Holds m' s' ∧ keymap.Keeps m m' := by
  obtain ⟨action, s₁, m₁, hleads, hhandled, hholds, hkeeps⟩ :=
    exists_leads_layeredHandler keymap.hook level h hvalid event
  have hvalid₁ := hhandled.valid hvalid
  cases keymap with
  | none =>
    exact ⟨action, s₁, m₁, .dispatch_none hleads, .handled nofun (fun _ => rfl) hhandled, hholds,
      fun name hname _ => hkeeps name hname⟩
  | movement =>
    have hkeymap : Keymap.movement ≠ .none := by decide
    obtain ⟨action', s', m', hmovement, hstep, hholds', hkeeps'⟩ :=
      exists_leads_movement (fun e => (layeredHandler level e).run Keymap.movement.hook) hleads
        hhandled hholds hvalid₁ hkeymap nofun
    exact ⟨action', s', m'.withoutError, .dispatch_some hmovement, hstep,
      hholds'.withoutError, (hkeeps.trans hkeeps').withoutError hkeymap⟩
  | submission =>
    obtain ⟨action', s', m', hsubmission, hstep, hholds', hkeeps'⟩ :=
      exists_leads_submission (fun e => (layeredHandler level e).run Keymap.submission.hook) hleads
        hhandled h hholds hkeeps hvalid₁
    exact ⟨action', s', m'.withoutError, .dispatch_some hsubmission, hstep,
      hholds'.withoutError, hkeeps'.withoutError (by decide)⟩

end CodeArea

end TerminalUI
