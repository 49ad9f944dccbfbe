import TerminalUI.Proofs.Application.Rounds

/-!
# Corresponding runs

Two programs may do the same on sessions that are not the same: at another level of the tree, say,
or with another journal. A `Correspondence` says which sessions are taken to be alike, and which
levels of binding points and which faults go together. `Program.InStep` says of two programs that
they take the same steps from two sessions, so that each binding point of one has its counterpart in
the other, with handlers that are in step again. Nothing is said there about what a hook does. If the
hooks keep the correspondence (`Correspondence.Hooked`), so do the runs of such programs
(`Program.InStep.outcome`).

With a correspondence of sessions with themselves this is how an invariant is shown to be kept.
-/

namespace TerminalUI

/-- Which sessions, levels of binding points and faults go together. -/
structure Correspondence where
  sessions : Session → Session → Prop
  levels : Path → Path → Prop
  faults : Fault → Fault → Prop
  /-- A fault goes together with itself. -/
  faults_refl : ∀ f, faults f f

namespace Correspondence

variable {α β γ δ : Type} {C : Correspondence} {R : α → β → Prop} {R' : γ → δ → Prop}

/-- Both computations end with results that are related, or both of them fault. -/
inductive Outcome (C : Correspondence) (R : α → β → Prop) :
    Except Fault α → Except Fault β → Prop where
  | ok {a : α} {b : β} (h : R a b) : Outcome C R (.ok a) (.ok b)
  | error {f f' : Fault} (h : C.faults f f') : Outcome C R (.error f) (.error f')

end Correspondence

/-- From sessions that correspond, the computations have the same outcome, and end in sessions that
correspond. -/
def UI.Corresponds {α β : Type} (C : Correspondence) (R : α → β → Prop) (c : UI α) (c' : UI β) :
    Prop :=
  ∀ s s', C.sessions s s' →
    C.Outcome R (c.run s).1 (c'.run s').1 ∧ C.sessions (c.run s).2 (c'.run s').2

theorem UI.Corresponds.bind {α β γ δ : Type} {C : Correspondence} {R : α → β → Prop}
    {R' : γ → δ → Prop} {c : UI α} {c' : UI β} {f : α → UI γ} {f' : β → UI δ}
    (h : Corresponds C R c c') (hf : ∀ a b, R a b → Corresponds C R' (f a) (f' b)) :
    Corresponds C R' (c >>= f) (c' >>= f') := by
  intro s s' hs
  obtain ⟨houtcome, hsessions⟩ := h s s' hs
  rcases hc : c.run s with ⟨r, s₁⟩
  rcases hc' : c'.run s' with ⟨r', s₁'⟩
  rw [hc, hc'] at houtcome hsessions
  cases houtcome with
  | ok hR =>
    rw [run_bind_of_ok hc, run_bind_of_ok hc']
    exact hf _ _ hR s₁ s₁' hsessions
  | error hfault =>
    rw [run_bind_of_error hc, run_bind_of_error hc']
    exact ⟨.error hfault, hsessions⟩

theorem UI.Corresponds.pure {α β : Type} {C : Correspondence} {R : α → β → Prop} {a : α} {b : β}
    (h : R a b) : Corresponds C R (pure a) (pure b) :=
  fun _ _ hs => ⟨.ok h, hs⟩

/-- At corresponding binding points, the hooks do the same, if the handlers that they are given do
the same. -/
def Correspondence.Hooked (C : Correspondence) (hook hook' : Option Hook) : Prop :=
  ∀ level level' tag event (handler handler' : Event → UI Action), C.levels level level' →
    (∀ e, UI.Corresponds C Eq (handler e) (handler' e)) →
    UI.Corresponds C Eq (dispatchThrough hook level tag event handler)
      (dispatchThrough hook' level' tag event handler')

theorem Correspondence.hooked_none (C : Correspondence) : C.Hooked none none :=
  fun _ _ _ event _ _ _ h => h event

/-! ### Programs in step -/

/-- From two sessions, the handlers take the same steps, up to the correspondence. -/
inductive Reaction.InStep (C : Correspondence) : Session → Session → Reaction → Reaction → Prop where
  | done {s s' : Session} (hs : C.sessions s s') (a : Action) : InStep C s s' (.done a) (.done a)
  | fault {s s' : Session} {f f' : Fault} (hs : C.sessions s s') (hf : C.faults f f') :
    InStep C s s' (.fault f) (.fault f')
  | read {s s' : Session} {next next' : Tree → Reaction}
    (h : InStep C s s' (next s.tree) (next' s'.tree)) : InStep C s s' (.read next) (.read next')
  | write {s s' : Session} {t t' : Tree} {next next' : Reaction}
    (h : InStep C { s with tree := t } { s' with tree := t' } next next') :
    InStep C s s' (.write t next) (.write t' next')
  | dispatch {s s' : Session} {level level' : Path} {tag : String} {event : Event}
    {handler handler' : Event → Reaction} {next next' : Action → Reaction}
    (hs : C.sessions s s') (hlevels : C.levels level level')
    (hhandler : ∀ e s s', C.sessions s s' → InStep C s s' (handler e) (handler' e))
    (hnext : ∀ a s s', C.sessions s s' → InStep C s s' (next a) (next' a)) :
    InStep C s s' (.dispatch level tag event handler next)
      (.dispatch level' tag event handler' next')

/-- From two sessions, the programs take the same steps, up to the correspondence, and end with
related results. -/
inductive Program.InStep {α β : Type} (C : Correspondence) (R : α → β → Prop) :
    Session → Session → Program α → Program β → Prop where
  | done {s s' : Session} {a : α} {b : β} (hs : C.sessions s s') (h : R a b) :
    InStep C R s s' (.done a) (.done b)
  | fault {s s' : Session} {f f' : Fault} (hs : C.sessions s s') (hf : C.faults f f') :
    InStep C R s s' (.fault f) (.fault f')
  | read {s s' : Session} {next : Tree → Program α} {next' : Tree → Program β}
    (h : InStep C R s s' (next s.tree) (next' s'.tree)) : InStep C R s s' (.read next) (.read next')
  | write {s s' : Session} {t t' : Tree} {next : Program α} {next' : Program β}
    (h : InStep C R { s with tree := t } { s' with tree := t' } next next') :
    InStep C R s s' (.write t next) (.write t' next')
  | dispatch {s s' : Session} {level level' : Path} {tag : String} {event : Event}
    {handler handler' : Event → Reaction} {next : Action → Program α} {next' : Action → Program β}
    (hs : C.sessions s s') (hlevels : C.levels level level')
    (hhandler : ∀ e s s', C.sessions s s' → (handler e).InStep C s s' (handler' e))
    (hnext : ∀ a s s', C.sessions s s' → InStep C R s s' (next a) (next' a)) :
    InStep C R s s' (.dispatch level tag event handler next)
      (.dispatch level' tag event handler' next')

namespace Program

variable {α β γ δ : Type} {C : Correspondence} {R : α → β → Prop} {R' : γ → δ → Prop}
  {s s' : Session} {p : Program α} {q : Program β}

theorem InStep.bind {f : α → Program γ} {g : β → Program δ} (h : InStep C R s s' p q)
    (hf : ∀ a b s s', R a b → C.sessions s s' → InStep C R' s s' (f a) (g b)) :
    InStep C R' s s' (p.bind f) (q.bind g) := by
  induction h with
  | done hs hR => exact hf _ _ _ _ hR hs
  | fault hs hfault => exact .fault hs hfault
  | read _ ih => exact .read ih
  | write _ ih => exact .write ih
  | dispatch hs hlevels hhandler _ ih => exact .dispatch hs hlevels hhandler ih

theorem InStep.toReaction {p q : Program Action} (h : InStep C Eq s s' p q) :
    Reaction.InStep C s s' p.toReaction q.toReaction := by
  induction h with
  | done hs hR =>
    cases hR
    exact .done hs _
  | fault hs hfault => exact .fault hs hfault
  | read _ ih => exact .read ih
  | write _ ih => exact .write ih
  | dispatch hs hlevels hhandler _ ih => exact .dispatch hs hlevels hhandler ih

end Program

/-! ### Runs of programs in step -/

section

variable {C : Correspondence} {hook hook' : Option Hook} {s s' : Session}

/-- What is dispatched to a binding point and then gone on with, under hooks that keep the
correspondence. -/
theorem Correspondence.Hooked.bind {α β : Type} {R : α → β → Prop} (h : C.Hooked hook hook')
    {level level' : Path} {tag : String} {event : Event} {handler handler' : Event → UI Action}
    {next : Action → UI α} {next' : Action → UI β} (hs : C.sessions s s')
    (hlevels : C.levels level level')
    (hhandler : ∀ e, UI.Corresponds C Eq (handler e) (handler' e))
    (hnext : ∀ a, UI.Corresponds C R (next a) (next' a)) :
    C.Outcome R ((dispatchThrough hook level tag event handler >>= next).run s).1
        ((dispatchThrough hook' level' tag event handler' >>= next').run s').1 ∧
      C.sessions ((dispatchThrough hook level tag event handler >>= next).run s).2
        ((dispatchThrough hook' level' tag event handler' >>= next').run s').2 := by
  refine UI.Corresponds.bind (h _ _ _ _ _ _ hlevels hhandler) ?_ s s' hs
  rintro a _ rfl
  exact hnext a

theorem Reaction.InStep.outcome (hhook : C.Hooked hook hook') {r r' : Reaction}
    (h : r.InStep C s s' r') :
    C.Outcome Eq ((r.run hook).run s).1 ((r'.run hook').run s').1 ∧
      C.sessions ((r.run hook).run s).2 ((r'.run hook').run s').2 := by
  induction h with
  | done hs a => exact ⟨.ok rfl, hs⟩
  | fault hs hfault => exact ⟨.error hfault, hs⟩
  | read _ ih => exact ih
  | write _ ih => exact ih
  | dispatch hs hlevels _ _ ihhandler ihnext => exact hhook.bind hs hlevels ihhandler ihnext

/-- **Programs in step have the same outcome**, under hooks that keep the correspondence. -/
theorem Program.InStep.outcome {α β : Type} {R : α → β → Prop} (hhook : C.Hooked hook hook')
    {p : Program α} {q : Program β} (h : p.InStep C R s s' q) :
    C.Outcome R ((p.run hook).run s).1 ((q.run hook').run s').1 ∧
      C.sessions ((p.run hook).run s).2 ((q.run hook').run s').2 := by
  induction h with
  | done hs hR => exact ⟨.ok hR, hs⟩
  | fault hs hfault => exact ⟨.error hfault, hs⟩
  | read _ ih => exact ih
  | write _ ih => exact ih
  | dispatch hs hlevels hhandler _ ihnext =>
    exact hhook.bind hs hlevels (fun e s s' hs => (hhandler e s s' hs).outcome hhook) ihnext

end

end TerminalUI
