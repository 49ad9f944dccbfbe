import TerminalUI.Proofs.Application.Machine
import TerminalUI.Proofs.Demo.Fields
import TerminalUI.Proofs.Demo.Portable
import TerminalUI.Proofs.ListBox.Selection

/-!
# Runs of the temperature converter

The converter is two fields and a focus. `Temperature.Step` tells what becomes of an event: Tab
switches the focus, and all else is given to the focused field, after which the other field is
rewritten if the event was consumed. The converter started on the empty tree is a machine with these
steps, under every keymap (`Temperature.machine`).
-/

namespace TerminalUI

namespace Temperature

/-! ### States and steps -/

/-- The scales of the two fields. -/
inductive Scale where
  | celsius | fahrenheit
  deriving DecidableEq

namespace Scale

/-- The scale of the other field. -/
def other : Scale → Scale
  | celsius => fahrenheit
  | fahrenheit => celsius

/-- The name of the field. -/
def name : Scale → Name
  | celsius => celsiusName
  | fahrenheit => fahrenheitName

/-- The prompt of the field. -/
def prompt : Scale → String
  | celsius => "Celsius: "
  | fahrenheit => "Fahrenheit: "

/-- The focus on the field. -/
def index : Scale → Nat
  | celsius => 0
  | fahrenheit => 1

/-- Degrees of the scale in those of the other one. -/
def formula : Scale → Float → Float
  | celsius => toFahrenheit
  | fahrenheit => toCelsius

theorem other_ne (scale : Scale) : scale.other ≠ scale := by cases scale <;> decide

theorem name_ne_focus (scale : Scale) : scale.name ≠ focusName := by cases scale <;> decide

theorem name_inj {scale scale' : Scale} (h : scale.name = scale'.name) : scale = scale' := by
  cases scale <;> cases scale' <;> first | rfl | exact absurd h (by decide)

end Scale

/-- What the converter goes through: the states of the fields, and the focus. -/
structure State where
  field : Scale → CodeArea.State
  focus : Scale

/-- The state with another one of a field. -/
def State.set (s : State) (scale : Scale) (x : CodeArea.State) : State :=
  { s with field := Function.update s.field scale x }

/-- The other field, in a state `y`, after one of the scale in a state `x` was converted. -/
def rewritten (scale : Scale) (x y : CodeArea.State) : CodeArea.State :=
  match convert? scale.formula x.buffer.content with
  | some text => { y with buffer := .atEnd text }
  | none => y

/-- What becomes of an event. -/
inductive Step (keymap : CodeArea.Keymap) (s : State) : Event → Action → State → Prop where
  | switched : Step keymap s (.key (.bare .tab)) .consumed { s with focus := s.focus.other }
  | consumed {event : Event} {x : CodeArea.State} (htab : event ≠ .key (.bare .tab))
    (hfield : CodeArea.Step keymap (s.field s.focus) event .consumed x) :
    Step keymap s event .consumed ((s.set s.focus x).set s.focus.other
      (rewritten s.focus x (s.field s.focus.other)))
  | other {event : Event} {action : Action} {x : CodeArea.State}
    (htab : event ≠ .key (.bare .tab)) (haction : action ≠ .consumed)
    (hfield : CodeArea.Step keymap (s.field s.focus) event action x) :
    Step keymap s event action (s.set s.focus x)

variable {keymap : CodeArea.Keymap} {hook : Option Hook} {level : Path} {t t' : Tree}
  {journal : List JournalEntry} {s : State} {scale : Scale} {x : CodeArea.State}

theorem field_set_self (s : State) (scale : Scale) (x : CodeArea.State) :
    (s.set scale x).field scale = x := Function.update_self ..

theorem field_set_of_ne {scale' : Scale} (h : scale' ≠ scale) (s : State) (x : CodeArea.State) :
    (s.set scale x).field scale' = s.field scale' := Function.update_of_ne h ..

/-! ### The tree -/

/-- The tree holds the fields in their states, and the focus. -/
structure Ready (level : Path) (t : Tree) (s : State) : Prop where
  field : ∀ scale : Scale, t.HasField level scale.name scale.prompt (s.field scale)
  focus : t.resolve (level.child focusName) = some (.index s.focus.index)

theorem Ready.exists_map (h : Ready level t s) : ∃ m, t.resolve level = some (.map m) :=
  Tree.exists_map_of_child h.focus

/-- One field is written, and the other one stays. -/
theorem Ready.set (h : Ready level t s) (hsame : t.SameBeside level {scale.name} t')
    (hfield : t'.HasField level scale.name scale.prompt x) : Ready level t' (s.set scale x) where
  field scale' := by
    by_cases heq : scale' = scale
    · rw [heq, field_set_self]
      exact hfield
    · rw [field_set_of_ne heq]
      exact (h.field scale').beside hsame fun hname => heq (Scale.name_inj hname)
  focus := by
    rw [hsame.resolve_child (Ne.symm scale.name_ne_focus)]
    exact h.focus

theorem Ready.setFocus (h : Ready level t s) (hsame : t.SameBeside level {focusName} t')
    (hfocus : t'.resolve (level.child focusName) = some (.index scale.index)) :
    Ready level t' { s with focus := scale } where
  field scale' := (h.field scale').beside hsame scale'.name_ne_focus
  focus := hfocus

/-! ### Events -/

/-- The handler of the scenes at a level. -/
def sceneHandler (level : Path) : Handler :=
  handler (.at level) (CodeArea.handler (level.child celsiusName))
    (CodeArea.handler (level.child fahrenheitName))

variable (hook) (journal) in
/-- The other field is rewritten. -/
theorem Ready.exists_run_sync (h : Ready level t s) (scale : Scale) :
    ∃ t', ((sync (CodeArea.buffer (level.child scale.name))
          (CodeArea.buffer (level.child scale.other.name)) scale.formula).run hook).run
        ⟨t, journal⟩ = (.ok (), ⟨t', journal⟩) ∧
      Ready level t' (s.set scale.other
        (rewritten scale (s.field scale) (s.field scale.other))) := by
  rw [sync, Program.run_bind_of_ok ((h.field scale).run_get hook journal)]
  unfold rewritten
  cases hconvert : convert? scale.formula (s.field scale).buffer.content with
  | none =>
    refine ⟨t, rfl, ?_⟩
    rw [State.set, Function.update_eq_self]
    exact h
  | some text =>
    obtain ⟨t', hset, hfield, hsame⟩ :=
      (h.field scale.other).exists_run_set hook journal (CodeBuffer.valid_atEnd text)
    exact ⟨t', hset, h.set hsame hfield⟩

variable (hook) (journal) in
theorem Ready.exists_run_switch (h : Ready level t s) :
    ∃ t', (((Vars.at level).focus.set (1 - s.focus.index)).run hook).run ⟨t, journal⟩ =
        (.ok (), ⟨t', journal⟩) ∧
      Ready level t' { s with focus := s.focus.other } := by
  obtain ⟨m, hm⟩ := h.exists_map
  obtain ⟨t', hset, hfocus, hsame⟩ :=
    Var.exists_run_set_entry hook journal hm (1 - s.focus.index)
  refine ⟨t', hset, h.setFocus hsame ?_⟩
  rw [hfocus]
  cases s.focus <;> rfl

/-- What is done with an event other than Tab is the same for both fields. -/
theorem run_handler_of_ne_tab {event : Event} (htab : event ≠ .key (.bare .tab))
    {session : Session} (hfocus : session.tree.resolve (level.child focusName) =
      some (.index scale.index)) :
    ((sceneHandler level event).run hook).run session = ((do
      let action ← CodeArea.handler (level.child scale.name) event
      if action = .consumed then
        sync (CodeArea.buffer (level.child scale.name))
          (CodeArea.buffer (level.child scale.other.name)) scale.formula
      return action : Program Action).run hook).run session := by
  have hget : (((Vars.at level).focus.get).run hook).run session = (.ok scale.index, session) :=
    Var.run_get_of_resolve hook hfocus
  have hnotTab : ¬ event.isBare .tab = true := by
    cases event with
    | key k => exact fun h => htab (congrArg Event.key (Event.isBare_key.1 h))
    | _ => simp [Event.isBare]
  rw [sceneHandler, handler, Program.run_bind_of_ok hget, if_neg hnotTab]
  cases scale <;> rfl

variable (journal) in
/-- The converter takes a step for every event. -/
theorem Ready.exists_run_handler (h : Ready level t s) (keymap : CodeArea.Keymap) (event : Event) :
    ∃ action s' t', ((sceneHandler level event).run keymap.hook).run ⟨t, journal⟩ =
        (.ok action, ⟨t', journal⟩) ∧
      Step keymap s event action s' ∧ Ready level t' s' := by
  by_cases htab : event = .key (.bare .tab)
  · subst htab
    have hget : (((Vars.at level).focus.get).run keymap.hook).run ⟨t, journal⟩ =
        (.ok s.focus.index, ⟨t, journal⟩) := Var.run_get_of_resolve keymap.hook h.focus
    obtain ⟨t', hset, h'⟩ := h.exists_run_switch keymap.hook journal
    refine ⟨.consumed, _, t', ?_, .switched, h'⟩
    have htab : (Event.key (.bare .tab)).isBare .tab = true := rfl
    have hle : ¬ s.focus.index > 1 := by cases s.focus <;> decide
    rw [sceneHandler, handler, Program.run_bind_of_ok hget, if_pos htab, if_neg hle,
      Program.run_bind_of_ok hset]
    rfl
  · obtain ⟨action, x, t₁, hfield, hstep, hfield', hsame⟩ :=
      (h.field s.focus).exists_run_handler journal keymap event
    have h₁ : Ready level t₁ (s.set s.focus x) := h.set hsame hfield'
    rw [run_handler_of_ne_tab htab h.focus, Program.run_bind_of_ok hfield]
    by_cases haction : action = .consumed
    · subst haction
      obtain ⟨t', hsync, h'⟩ := h₁.exists_run_sync keymap.hook journal s.focus
      rw [field_set_self, field_set_of_ne s.focus.other_ne] at h'
      refine ⟨.consumed, _, t', ?_, .consumed htab hstep, h'⟩
      rw [if_pos rfl, Program.run_bind_of_ok hsync]
      rfl
    · refine ⟨action, _, t₁, ?_, .other htab haction hstep, h₁⟩
      rw [if_neg haction]
      rfl

/-! ### Scenes -/

/-- A scene makes the fields in their states, and the focus. -/
structure Offers (level : Path) (t : Tree) (s : State) : Prop where
  exists_map : ∃ m, t.resolve level = some (.map m)
  field : ∀ scale : Scale, t.OffersField level scale.name scale.prompt (s.field scale)
  focus : t.resolve (level.child focusName) = some (.index s.focus.index) ∨
    t.resolve (level.child focusName) = none ∧ s.focus.index = 0

theorem Ready.offers (h : Ready level t s) : Offers level t s :=
  ⟨h.exists_map, fun scale => (h.field scale).offers, .inl h.focus⟩

/-- The state after the first scene: two empty fields. -/
def start : State where
  field scale := { prompt := .plain scale.prompt }
  focus := .celsius

theorem offers_empty : Offers .root .empty start where
  exists_map := ⟨_, rfl⟩
  field scale := Tree.offersField_of_eq_none (by cases scale <;> rfl) scale.prompt
  focus := .inr ⟨rfl, rfl⟩

variable (hook) (journal) in
theorem Offers.exists_run_scene {interpret : Blueprint → Component}
    (hinterpret : Tree.InterpretsFields interpret) (h : Offers level t s) :
    ∃ view t', ((temperature interpret level).run hook).run ⟨t, journal⟩ =
        (.ok ⟨view, sceneHandler level⟩, ⟨t', journal⟩) ∧ Ready level t' s := by
  obtain ⟨m, hm⟩ := h.exists_map
  obtain ⟨celsius, t₁, hcelsius, hfield₁, hsame₁⟩ := (h.field .celsius).exists_run_subcomponent
    hook journal hinterpret hm
  obtain ⟨m₁, hm₁, -⟩ := hfield₁.entries
  obtain ⟨m₁, hm₁⟩ := Tree.exists_map_of_child hm₁
  obtain ⟨fahrenheit, t₂, hfahrenheit, hfield₂, hsame₂⟩ :=
    ((h.field .fahrenheit).beside hsame₁ (by decide)).exists_run_subcomponent
      hook journal hinterpret hm₁
  obtain ⟨m₂, hm₂, -⟩ := hfield₂.entries
  obtain ⟨m₂, hm₂⟩ := Tree.exists_map_of_child hm₂
  have hfocus₂ : t₂.resolve (level.child focusName) = t.resolve (level.child focusName) := by
    rw [hsame₂.resolve_child (by decide), hsame₁.resolve_child (by decide)]
  obtain ⟨t₃, hfocus, hfocus₃, hsame₃⟩ := exists_run_stateAt hook journal (a := s.focus.index) 0
    hm₂ (hfocus₂ ▸ h.focus)
  refine ⟨.rows [celsius, fahrenheit] s.focus.index, t₃, ?_, fun scale => ?_, hfocus₃⟩
  · have hget : ((Var.get (Var.mk (α := Nat) (level.child focusName))).run hook).run
        ⟨t₃, journal⟩ = (.ok s.focus.index, ⟨t₃, journal⟩) := Var.run_get_of_resolve hook hfocus₃
    rw [temperature]
    refine (Program.run_bind_of_ok hcelsius _).trans ?_
    refine (Program.run_bind_of_ok hfahrenheit _).trans ?_
    refine (Program.run_bind_of_ok hfocus _).trans ?_
    exact (Program.run_bind_of_ok hget _).trans rfl
  · cases scale with
    | celsius =>
      exact (hfield₁.beside hsame₂ (by decide)).beside hsame₃ (by decide)
    | fahrenheit => exact hfield₂.beside hsame₃ (by decide)

/-! ### The machine -/

/-- The application that is a converter under a keymap. -/
def application (keymap : CodeArea.Keymap) : Application :=
  ⟨Blueprint.temperature.start, keymap.hook⟩

theorem start_temperature :
    Blueprint.temperature.start = temperature (Blueprint.component 9999) := by
  have hcomponent (depth : Nat) : Blueprint.temperature.component (depth + 1) =
      temperature (Blueprint.component depth) := rfl
  exact hcomponent 9999

variable (keymap) (journal) in
theorem Offers.exists_run_application (h : Offers .root t s) :
    ∃ view t', (application keymap).scene.run ⟨t, journal⟩ =
        (.ok ⟨view, sceneHandler .root⟩, ⟨t', journal⟩) ∧ Ready .root t' s := by
  obtain ⟨view, t', hscene, h'⟩ :=
    h.exists_run_scene keymap.hook journal (Tree.interpretsFields_component 9997)
  have hinvoke := Component.run_invoke hscene
  rw [← start_temperature] at hinvoke
  exact ⟨_, t', hinvoke, h'⟩

/-- The converter as a machine. -/
def machine (keymap : CodeArea.Keymap) : Machine State where
  application := application keymap
  holds := Ready .root
  handler _ := sceneHandler .root
  step := Step keymap
  initial := start
  exists_first := offers_empty.exists_run_application keymap []
  exists_scene h journal := h.offers.exists_run_application keymap journal
  exists_reaction h event journal := h.exists_run_handler journal keymap event

end Temperature

end TerminalUI
