import TerminalUI.Proofs.CodeArea.Deleting
import TerminalUI.Proofs.Program.Seeding
import TerminalUI.Proofs.Widget.Inner
import TerminalUI.Demo.Field

/-!
# Fields of a form

A form has fields below its level, each of them a code area with a prompt. `Tree.HasField` says
that a tree holds a field in some state, and `Tree.OffersField` that a scene of the form makes it.
All that can happen to a field of a form is here: its scene is made, an event is given to it, and
the form writes to its buffer. None of this changes anything beside it.

What is not typed or pasted stays as it was configured (`CodeArea.Step.configuration_eq`), so the
fields of a form have no abbreviations and quote nothing (`CodeArea.State.plain_of_configuration`,
`CodeArea.State.insertion_of_configuration`).
-/

namespace TerminalUI

theorem Event.isBare_key {k : Key} {code : KeyCode} :
    (Event.key k).isBare code = true ↔ k = .bare code := by
  rw [isBare_iff, key.injEq]

namespace CodeArea

variable {s : State}

theorem State.plain_of_configuration {prompt : StyledText}
    (h : s.configuration = { prompt := prompt }) : s.Plain where
  simple := congrArg State.simple h
  command := congrArg State.command h
  smallWord := congrArg State.smallWord h

/-- A pasted text is inserted as it is. -/
theorem State.insertion_of_configuration {prompt : StyledText}
    (h : s.configuration = { prompt := prompt }) (text : String) : s.insertion text = text := by
  have hquote : s.quote = false := congrArg State.quote h
  rw [insertion, hquote]
  rfl

theorem State.faithful_of_configuration {prompt : StyledText}
    (h : s.configuration = { prompt := prompt }) : s.highlighter.Faithful := by
  have hhighlighter : s.highlighter = .plain := congrArg State.highlighter h
  exact hhighlighter ▸ Highlighter.faithful_plain

end CodeArea

namespace Tree

variable {keymap : CodeArea.Keymap} {hook : Option Hook} {level : Path} {name : Name}
  {prompt : String} {t t' m : Tree} {journal : List JournalEntry} {s : CodeArea.State}

/-- Below the level, the tree holds a field with the prompt, in a state that it can go on from. -/
structure HasField (level : Path) (name : Name) (prompt : String) (t : Tree)
    (s : CodeArea.State) : Prop where
  entries : ∃ m, t.resolve (level.child name) = some (.map m) ∧ CodeArea.Holds m s ∧
    m.Accepts (.field prompt)
  valid : s.buffer.Valid
  configuration : s.configuration = { prompt := .plain prompt }

/-- Below the level, a scene makes a field with the prompt, in the state. -/
structure OffersField (level : Path) (name : Name) (prompt : String) (t : Tree)
    (s : CodeArea.State) : Prop where
  entries : ∃ m, t.HasMap (level.child name) m ∧ m.Accepts (.field prompt) ∧
    CodeArea.Configured ((m.withDefault componentName (.component (.field prompt))).withDefault
      CodeArea.promptName (.styled (.plain prompt))) s
  valid : s.buffer.Valid
  configuration : s.configuration = { prompt := .plain prompt }

theorem HasField.beside {names : Set Name} (h : HasField level name prompt t s)
    (hsame : SameBeside level names t t') (hfree : name ∉ names) :
    HasField level name prompt t' s := by
  refine ⟨?_, h.valid, h.configuration⟩
  rw [hsame.resolve_child hfree]
  exact h.entries

theorem HasField.offers (h : HasField level name prompt t s) :
    OffersField level name prompt t s := by
  obtain ⟨m, hm, hholds, haccepts⟩ := h.entries
  refine ⟨⟨m, .inl hm, haccepts, ?_⟩, h.valid, h.configuration⟩
  have hprompt : ((m.withDefault componentName (.component (.field prompt))).get?
      CodeArea.promptName).isSome := by
    rw [get?_withDefault, hholds.prompt]
    rfl
  rw [withDefault_of_isSome hprompt]
  exact hholds.configured.withDefault (by decide) _

/-- Where nothing is, a scene makes an empty field. -/
theorem offersField_of_eq_none (h : t.resolve (level.child name) = none) (prompt : String) :
    OffersField level name prompt t { prompt := .plain prompt } := by
  refine ⟨⟨.empty, .inr ⟨h, rfl⟩, .inl rfl, CodeArea.configured_prompt (fun key hkey => ?_) _⟩,
    CodeBuffer.valid_ofContent "" 0, rfl⟩
  have hne : key ≠ componentName := by
    rintro rfl
    revert hkey
    decide
  rw [get?_withDefault, if_neg hne]
  rfl

theorem OffersField.beside {names : Set Name} (h : OffersField level name prompt t s)
    (hsame : SameBeside level names t t') (hfree : name ∉ names) :
    OffersField level name prompt t' s := by
  refine ⟨?_, h.valid, h.configuration⟩
  simp only [HasMap, hsame.resolve_child hfree]
  exact h.entries

/-! ### The entries of a field -/

theorem HasField.resolve_buffer (h : HasField level name prompt t s) :
    t.resolve (CodeArea.buffer (level.child name)).path = some (.buffer s.buffer) := by
  obtain ⟨m, hm, hholds, -⟩ := h.entries
  exact (resolve_child hm).trans hholds.buffer

theorem HasField.resolve_pasting (h : HasField level name prompt t s) :
    t.resolve (CodeArea.pasting (level.child name)).path = some (.bool s.pasting) := by
  obtain ⟨m, hm, hholds, -⟩ := h.entries
  exact (resolve_child hm).trans hholds.pasting

variable (hook) (journal) in
/-- The form reads the buffer of a field. -/
theorem HasField.run_get (h : HasField level name prompt t s) :
    (((CodeArea.buffer (level.child name)).get).run hook).run ⟨t, journal⟩ =
      (.ok s.buffer, ⟨t, journal⟩) :=
  Var.run_get_of_resolve hook h.resolve_buffer

variable (hook) (journal) in
/-- The form writes to the buffer of a field. -/
theorem HasField.exists_run_set (h : HasField level name prompt t s)
    {b : CodeBuffer} (hb : b.Valid) :
    ∃ t', (((CodeArea.buffer (level.child name)).set b).run hook).run ⟨t, journal⟩ =
        (.ok (), ⟨t', journal⟩) ∧
      HasField level name prompt t' { s with buffer := b } ∧ SameBeside level {name} t t' := by
  obtain ⟨m, hm, hholds, haccepts⟩ := h.entries
  have hleads : Program.Leads hook (level.child name) ((CodeArea.buffer (level.child name)).set b)
      m () (m.insert CodeArea.bufferName (.buffer b)) := Var.leads_set b
  obtain ⟨t', hrun, hm', hsame⟩ := hleads.exists_run journal hm
  refine ⟨t', hrun, ⟨⟨_, hm', hholds.setBuffer b, ?_⟩, hb, h.configuration⟩, hsame.beside⟩
  rw [Accepts, get?_insert_of_ne (by decide)]
  exact haccepts

/-! ### Scenes and events -/

/-- What the blueprints of fields stand for. -/
def InterpretsFields (interpret : Blueprint → Component) : Prop :=
  ∀ prompt, interpret (.field prompt) =
    codeArea.withStates [(.ofString CodeArea.promptName, .styled (.plain prompt))]

theorem interpretsFields_component (depth : Nat) :
    InterpretsFields (Blueprint.component (depth + 2)) := fun _ => rfl

variable (hook) (journal) in
/-- A scene of the form makes the field. -/
theorem OffersField.exists_run_subcomponent {interpret : Blueprint → Component}
    (hinterpret : InterpretsFields interpret) (h : OffersField level name prompt t s)
    (hlevel : t.resolve level = some (.map m)) :
    ∃ view t', ((Component.subcomponent interpret level name (.field prompt)).run hook).run
        ⟨t, journal⟩ = (.ok ⟨view, CodeArea.handler (level.child name)⟩, ⟨t', journal⟩) ∧
      HasField level name prompt t' s ∧ SameBeside level {name} t t' := by
  obtain ⟨f, hf, haccepts, hconfigured⟩ := h.entries
  obtain ⟨code, tips, hcode, -⟩ := CodeArea.exists_shownCode
    (CodeArea.State.faithful_of_configuration h.configuration) s.pending s.buffer.content
  have hinvoke : Program.Leads hook (level.child name)
      ((interpret (.field prompt)).invoke (level.child name)) _ _ _ :=
    hinterpret prompt ▸ Component.leads_invoke_withState CodeArea.promptName (by decide) _
      (CodeArea.leads_invoke hconfigured hcode)
  obtain ⟨t', hrun, hf', hsame⟩ :=
    Component.exists_run_subcomponent journal hlevel hf haccepts hinvoke
  refine ⟨_, t', hrun, ⟨⟨_, hf', hconfigured, ?_⟩, h.valid, h.configuration⟩, hsame⟩
  rw [Accepts, CodeArea.get?_initialized rfl rfl rfl, get?_withDefault, if_neg (by decide),
    Option.or_none]
  exact .inr haccepts.get?_withDefault

variable (journal) in
/-- A field of a form takes a step for an event that is given to it. -/
theorem HasField.exists_run_handler (h : HasField level name prompt t s)
    (keymap : CodeArea.Keymap) (event : Event) :
    ∃ action s' t', ((CodeArea.handler (level.child name) event).run keymap.hook).run ⟨t, journal⟩ =
        (.ok action, ⟨t', journal⟩) ∧
      CodeArea.Step keymap s event action s' ∧ HasField level name prompt t' s' ∧
      SameBeside level {name} t t' := by
  obtain ⟨m, hm, hholds, haccepts⟩ := h.entries
  obtain ⟨action, s', m', hleads, hstep, hholds', hkeeps⟩ :=
    CodeArea.exists_leads_handler keymap hholds h.valid event
  obtain ⟨t', hrun, hm', hsame⟩ := hleads.exists_run journal hm
  refine ⟨action, s', t', hrun, hstep, ⟨⟨m', hm', hholds', ?_⟩, hstep.valid h.valid, ?_⟩,
    hsame.beside⟩
  · rw [Accepts, hkeeps _ (by decide) fun heq => absurd heq (by decide)]
    exact haccepts
  · rw [hstep.configuration_eq, h.configuration]

end Tree

end TerminalUI
