import TerminalUI.Application.Embedded
import TerminalUI.Proofs.Program.Running

/-!
# Embedded applications as state machines

An application that never fails goes through states of its own. `Machine` tells which: what the tree
holds in a state, which handler the scene has then, and which steps there are, and it carries the
proofs that a scene is made in every state and that every event is a step. The machine starts on the
empty tree.

* `Machine.Live.exists_dispatch` : an embedded application takes a step for every event;
* `Machine.Live.exists_dispatchAll` : so it does for any events, one after the other;
* `Machine.Reachable.exists_live` : what it can become is always such a state.
-/

namespace TerminalUI

namespace Embedded

variable {w w' w'' : Embedded} {event : Event} {events : List Event} {action : Action}
  {actions : List Action} {s s' : Session} {scene : Scene}

/-- The reaction to an event and the next scene are one run. -/
theorem dispatch_eq_ok
    (hreaction : (w.application.react w.scene event).run w.session = (.ok action, s))
    (hscene : w.application.scene.run s = (.ok scene, s')) :
    w.dispatch event = .ok (action, { w with session := s', scene }) := by
  have hrefresh : (do return (← w.application.react w.scene event, ← w.application.scene) :
      UI (Action × Scene)).run w.session = (.ok (action, scene), s') :=
    (run_bind_of_ok hreaction).trans (run_bind_of_ok hscene)
  rw [dispatch, refreshAfter, hrefresh]

theorem dispatchAll_cons (hfirst : w.dispatch event = .ok (action, w'))
    (hrest : w'.dispatchAll events = .ok (actions, w'')) :
    w.dispatchAll (event :: events) = .ok (action :: actions, w'') := by
  rw [dispatchAll, hfirst]
  simp only [bind, Except.bind, hrest]
  rfl

/-- An application that takes every event, and keeps some property then, takes any events. -/
theorem exists_dispatchAll {P : Embedded → Prop}
    (h : ∀ {w}, P w → ∀ event, ∃ action w', w.dispatch event = .ok (action, w') ∧ P w')
    (hw : P w) (events : List Event) :
    ∃ actions w', w.dispatchAll events = .ok (actions, w') ∧ P w' := by
  induction events generalizing w with
  | nil => exact ⟨[], w, rfl, hw⟩
  | cons event events ih =>
    obtain ⟨action, w₁, hfirst, hw₁⟩ := h hw event
    obtain ⟨actions, w', hrest, hw'⟩ := ih hw₁
    exact ⟨action :: actions, w', dispatchAll_cons hfirst hrest, hw'⟩

end Embedded

/-- The states of an application, and what becomes of events in them. -/
structure Machine (σ : Type) where
  application : Application
  /-- What the tree holds in a state. -/
  holds : Tree → σ → Prop
  /-- The handler of the scene in a state. -/
  handler : σ → Handler
  step : σ → Event → Action → σ → Prop
  /-- The state after the first scene. -/
  initial : σ
  exists_first : ∃ view t, application.scene.run {} = (.ok ⟨view, handler initial⟩, ⟨t, []⟩) ∧
    holds t initial
  exists_scene : ∀ {t s}, holds t s → ∀ journal, ∃ view t',
    application.scene.run ⟨t, journal⟩ = (.ok ⟨view, handler s⟩, ⟨t', journal⟩) ∧ holds t' s
  exists_reaction : ∀ {t s}, holds t s → ∀ event journal, ∃ action s' t',
    ((handler s event).run application.hook).run ⟨t, journal⟩ = (.ok action, ⟨t', journal⟩) ∧
      step s event action s' ∧ holds t' s'

namespace Machine

variable {σ : Type} {M : Machine σ} {w : Embedded} {s s' : σ} {event : Event} {action : Action}
  {events : List Event} {actions : List Action}

/-- The embedded application is in a state and waits for the next event. -/
structure Live (M : Machine σ) (w : Embedded) (s : σ) : Prop where
  application : w.application = M.application
  holds : M.holds w.tree s
  scene : ∃ view, w.scene = ⟨view, M.handler s⟩

/-- Steps for events, one after the other, with what was reported for each. -/
inductive Run (M : Machine σ) : σ → List Event → List Action → σ → Prop where
  | nil (s : σ) : Run M s [] [] s
  | cons {s s' s'' : σ} {event : Event} {action : Action} {events : List Event}
    {actions : List Action} (hstep : M.step s event action s')
    (hrun : Run M s' events actions s'') : Run M s (event :: events) (action :: actions) s''

/-- What every step keeps is kept by runs. -/
theorem Run.invariant {P : σ → Prop} (h : Run M s events actions s')
    (hstep : ∀ {s event action s'}, P s → M.step s event action s' → P s') (hs : P s) : P s' := by
  induction h with
  | nil => exact hs
  | cons h _ ih => exact ih (hstep hs h)

theorem Run.exists_of_append {first second : List Event}
    (h : Run M s (first ++ second) actions s') :
    ∃ s₁ actions₁ actions₂, Run M s first actions₁ s₁ ∧ Run M s₁ second actions₂ s' ∧
      actions = actions₁ ++ actions₂ := by
  induction first generalizing s actions with
  | nil => exact ⟨s, [], actions, .nil s, h, rfl⟩
  | cons event first ih =>
    cases h with
    | cons hstep hrun =>
      obtain ⟨s₁, actions₁, actions₂, hfirst, hsecond, rfl⟩ := ih hrun
      exact ⟨s₁, _, actions₂, .cons hstep hfirst, hsecond, rfl⟩

/-! ### Embedded applications -/

/-- A machine starts on the empty tree. -/
theorem exists_start (M : Machine σ) :
    ∃ w, Embedded.start M.application = .ok w ∧ M.Live w M.initial := by
  obtain ⟨view, t, hscene, hholds⟩ := M.exists_first
  refine ⟨⟨M.application, ⟨t, []⟩, ⟨view, M.handler M.initial⟩⟩, ?_, rfl, hholds, view, rfl⟩
  rw [Embedded.start, hscene]

/-- An embedded application takes a step for every event. -/
theorem Live.exists_dispatch (h : M.Live w s) (event : Event) :
    ∃ action w' s', w.dispatch event = .ok (action, w') ∧ M.step s event action s' ∧
      M.Live w' s' := by
  obtain ⟨view, hscene⟩ := h.scene
  obtain ⟨action, s', t₁, hreaction, hstep, hholds⟩ :=
    M.exists_reaction h.holds event w.session.journal
  obtain ⟨view', t', hnext, hholds'⟩ := M.exists_scene hholds w.session.journal
  have hreact : (w.application.react w.scene event).run w.session =
      (.ok action, ⟨t₁, w.session.journal⟩) := by
    rw [h.application, hscene]
    exact hreaction
  rw [← h.application] at hnext
  exact ⟨action, _, s', Embedded.dispatch_eq_ok hreact hnext, hstep, h.application, hholds', view',
    rfl⟩

/-- An embedded application takes a step for each of any events. -/
theorem Live.exists_dispatchAll (h : M.Live w s) (events : List Event) :
    ∃ actions w' s', w.dispatchAll events = .ok (actions, w') ∧ M.Run s events actions s' ∧
      M.Live w' s' := by
  induction events generalizing w s with
  | nil => exact ⟨[], w, s, rfl, .nil s, h⟩
  | cons event events ih =>
    obtain ⟨action, w₁, s₁, hdispatch, hstep, hlive⟩ := h.exists_dispatch event
    obtain ⟨actions, w', s', hrest, hrun, hlive'⟩ := ih hlive
    exact ⟨action :: actions, w', s', Embedded.dispatchAll_cons hdispatch hrest,
      .cons hstep hrun, hlive'⟩

/-- What an embedded application can become over any events from a start on the empty tree. -/
def Reachable (M : Machine σ) (w : Embedded) : Prop :=
  ∃ w₀ history actions, Embedded.start M.application = .ok w₀ ∧
    w₀.dispatchAll history = .ok (actions, w)

/-- Whatever the application becomes, a run of the machine leads there. -/
theorem Reachable.exists_live (h : M.Reachable w) :
    ∃ s history actions, M.Live w s ∧ M.Run M.initial history actions s := by
  obtain ⟨w₀, history, actions, hstart, hhistory⟩ := h
  obtain ⟨w₁, hstart', hlive⟩ := M.exists_start
  obtain ⟨actions', w', s, hhistory', hrun, hlive'⟩ := hlive.exists_dispatchAll history
  rw [hstart, Except.ok.injEq] at hstart'
  rw [hstart', hhistory', Except.ok.injEq, Prod.mk.injEq] at hhistory
  exact ⟨s, history, actions', hhistory.2 ▸ hlive', hrun⟩

end Machine

end TerminalUI
