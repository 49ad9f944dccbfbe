import TerminalUI.Hook.Editing
import TerminalUI.Proofs.Application.Resume

/-!
# Programs that a hook leaves alone

The hook for the keys that move the dot (`Hook.movement`) calls the handler that it was given, and
then acts only if a code area had no use for such a key. A binding point looks at what the hook has
answered, and takes a message away that an earlier failure has left. So a component does not notice
the hook if it finds no messages at its binding points (`Component.Quiet`), and gives none of these
keys to a code area unless it got one (`Component.Still`).

* `run_dispatchThrough_movement` : what is dispatched under the hook is what the handler does alone;
* `Program.ObeysFrom` : a program that keeps to a rule for its binding points. Rules are put together
  (`Program.ObeysFrom.and`), so that each can be shown by itself;
* `Program.ObeysFrom.same` : a program that keeps to both does the same under the hook and without
  one, by induction on the program; handlers inside of each other are an induction of their own;
* `Embedded.Mirrors` : applications of a quiet and still component, with the hook and without one,
  which stay the same over any events (`Mirrors.seen_dispatchAll`).
-/

namespace TerminalUI

/-- Is the event a key that the hook moves the dot for: Left, Right, Home or End without modifiers?
-/
def Event.movesDot (event : Event) : Bool := (event.key?.bind Movement.ofKey?).isSome

variable {α β : Type} {good : Tree → Prop} {R : α → Prop} {R' : β → Prop} {s : Session} {t : Tree}
  {level : Path} {tag : String} {event : Event}

/-! ### Computations that do the same -/

/-- From a session, two computations do the same, and when they end with a result, it is such a
result as is asked for, with a tree that can be relied on. -/
structure UI.Same (good : Tree → Prop) (R : α → Prop) (s : Session) (c c' : UI α) : Prop where
  run_eq : c.run s = c'.run s
  ends : ∀ {a s'}, c'.run s = (.ok a, s') → good s'.tree ∧ R a

namespace UI.Same

theorem pure {a : α} (hs : good s.tree) (h : R a) : UI.Same good R s (pure a) (pure a) where
  run_eq := rfl
  ends := by
    rintro _ _ ⟨⟩
    exact ⟨hs, h⟩

theorem bind {c c' : UI α} {f f' : α → UI β} (h : UI.Same good R s c c')
    (hf : ∀ a s', good s'.tree → R a → UI.Same good R' s' (f a) (f' a)) :
    UI.Same good R' s (c >>= f) (c' >>= f') := by
  have hrun := h.run_eq
  rcases hc : c'.run s with ⟨fault | a, s₁⟩
  · rw [hc] at hrun
    refine ⟨by rw [run_bind_of_error hrun, run_bind_of_error hc], fun hends => ?_⟩
    rw [run_bind_of_error hc] at hends
    cases hends
  · rw [hc] at hrun
    obtain ⟨hs₁, hR⟩ := h.ends hc
    have hnext := hf a s₁ hs₁ hR
    refine ⟨?_, fun hends => ?_⟩
    · rw [run_bind_of_ok hrun, run_bind_of_ok hc, hnext.run_eq]
    · rw [run_bind_of_ok hc] at hends
      exact hnext.ends hends

theorem throw (f : Fault) : UI.Same good R s (throw f) (throw f) where
  run_eq := rfl
  ends := nofun

theorem tree_bind {f f' : Tree → UI α} (h : UI.Same good R s (f s.tree) (f' s.tree)) :
    UI.Same good R s (UI.tree >>= f) (UI.tree >>= f') :=
  ⟨h.run_eq, h.ends⟩

theorem setTree_bind {c c' : UI α} (h : UI.Same good R { s with tree := t } c c') :
    UI.Same good R s (do UI.setTree t; c) (do UI.setTree t; c') :=
  ⟨h.run_eq, h.ends⟩

end UI.Same

/-- The hook only calls the handler of any other widget, and that of a code area if the event is none
of its keys. -/
theorem Hook.movement_eq (handler : Event → UI Action)
    (hevent : tag = CodeArea.tag → event.movesDot = false) :
    Hook.movement event level tag handler = Hook.transparent event level tag handler := by
  refine bind_congr fun action => ?_
  split
  · rfl
  · rename_i hunused
    simp only [Bool.or_eq_true, decide_eq_true_eq, not_or, Decidable.not_not] at hunused
    obtain ⟨htag, rfl⟩ := hunused
    have hkey := hevent htag
    rw [Event.movesDot, Option.isSome_eq_false_iff, Option.isNone_iff_eq_none] at hkey
    rw [hkey]

/-! ### Rules for binding points -/

/-- What may be given to a handler at a binding point: a rule for levels, tags and events. -/
abbrev DispatchRule := Path → String → Event → Prop

namespace DispatchRule

/-- No message can be found at the level. -/
def noMessage (good : Tree → Prop) : DispatchRule :=
  fun level _ _ => ∀ t, good t → t.resolve (level.child errorName) = none

/-- No code area gets a key that moves the dot. -/
def noMovement : DispatchRule := fun _ tag event => tag = CodeArea.tag → event.movesDot = false

/-- Both rules. -/
def and (rule rule' : DispatchRule) : DispatchRule :=
  fun level tag event => rule level tag event ∧ rule' level tag event

/-- The hook makes no difference. -/
def unnoticed (good : Tree → Prop) : DispatchRule := (noMessage good).and noMovement

end DispatchRule

variable {rule rule' : DispatchRule} {given : Event → Prop}

/-- From a tree, the handler writes only trees that can be relied on, and keeps to the rule at its
binding points. -/
inductive Reaction.ObeysFrom (good : Tree → Prop) (rule : DispatchRule) : Tree → Reaction → Prop where
  | done (t : Tree) (action : Action) : ObeysFrom good rule t (.done action)
  | fault (t : Tree) (f : Fault) : ObeysFrom good rule t (.fault f)
  | read {t : Tree} {next : Tree → Reaction} (h : ObeysFrom good rule t (next t)) :
    ObeysFrom good rule t (.read next)
  | write {t t' : Tree} {next : Reaction} (ht' : good t') (h : ObeysFrom good rule t' next) :
    ObeysFrom good rule t (.write t' next)
  | dispatch {t : Tree} {level : Path} {tag : String} {event : Event}
    {handler : Event → Reaction} {next : Action → Reaction} (hrule : rule level tag event)
    (hhandler : ObeysFrom good rule t (handler event))
    (hnext : ∀ action t, good t → ObeysFrom good rule t (next action)) :
    ObeysFrom good rule t (.dispatch level tag event handler next)

/-- From a tree, the program writes only trees that can be relied on, keeps to the rule at its binding
points, and ends with such a result as is asked for. -/
inductive Program.ObeysFrom {α : Type} (good : Tree → Prop) (rule : DispatchRule) (R : α → Prop) :
    Tree → Program α → Prop where
  | done {t : Tree} {a : α} (h : R a) : ObeysFrom good rule R t (.done a)
  | fault (t : Tree) (f : Fault) : ObeysFrom good rule R t (.fault f)
  | read {t : Tree} {next : Tree → Program α} (h : ObeysFrom good rule R t (next t)) :
    ObeysFrom good rule R t (.read next)
  | write {t t' : Tree} {next : Program α} (ht' : good t') (h : ObeysFrom good rule R t' next) :
    ObeysFrom good rule R t (.write t' next)
  | dispatch {t : Tree} {level : Path} {tag : String} {event : Event}
    {handler : Event → Reaction} {next : Action → Program α} (hrule : rule level tag event)
    (hhandler : (handler event).ObeysFrom good rule t)
    (hnext : ∀ action t, good t → ObeysFrom good rule R t (next action)) :
    ObeysFrom good rule R t (.dispatch level tag event handler next)

/-- From every tree that can be relied on, the program keeps to the rule. -/
def Program.Obeys (good : Tree → Prop) (rule : DispatchRule) (R : α → Prop) (p : Program α) : Prop :=
  ∀ t, good t → p.ObeysFrom good rule R t

/-- The handler keeps to the rule with every event of a kind. -/
def Handler.Obeys (good : Tree → Prop) (rule : DispatchRule) (given : Event → Prop)
    (handler : Handler) : Prop :=
  ∀ event, given event → (handler event).Obeys good rule fun _ => True

/-- The component keeps to the rule at a level, and so do the handlers of its scenes, with every event
of a kind. -/
def Component.Obeys (good : Tree → Prop) (rule : DispatchRule) (given : Event → Prop) (c : Component)
    (level : Path) : Prop :=
  (c level).Obeys good rule fun scene => scene.handler.Obeys good rule given

/-- With events that do not move the dot, the hook makes no difference to the handler. -/
def Handler.Unaware (good : Tree → Prop) (handler : Handler) : Prop :=
  handler.Obeys good (.unnoticed good) fun event => event.movesDot = false

/-- With events that do not move the dot, the hook makes no difference to the component. -/
def Component.Unaware (good : Tree → Prop) (c : Component) (level : Path) : Prop :=
  c.Obeys good (.unnoticed good) (fun event => event.movesDot = false) level

/-- A handler that keeps to two rules keeps to both at once. -/
theorem Reaction.ObeysFrom.and {r : Reaction} (h : r.ObeysFrom good rule t)
    (h' : r.ObeysFrom good rule' t) : r.ObeysFrom good (rule.and rule') t := by
  induction h with
  | done t action => exact .done t action
  | fault t f => exact .fault t f
  | read _ ih =>
    cases h' with
    | read h' => exact .read (ih h')
  | write ht' _ ih =>
    cases h' with
    | write _ h' => exact .write ht' (ih h')
  | dispatch hrule _ _ ihhandler ihnext =>
    cases h' with
    | dispatch hrule' hhandler' hnext' =>
      exact .dispatch ⟨hrule, hrule'⟩ (ihhandler hhandler') fun action t ht =>
        ihnext action t ht (hnext' action t ht)

namespace Program

/-- A program that keeps to two rules keeps to both at once. -/
theorem ObeysFrom.and {R R' R'' : α → Prop} {p : Program α} (h : p.ObeysFrom good rule R t)
    (h' : p.ObeysFrom good rule' R' t) (hR : ∀ a, R a → R' a → R'' a) :
    p.ObeysFrom good (rule.and rule') R'' t := by
  induction h with
  | done ha =>
    cases h' with
    | done ha' => exact .done (hR _ ha ha')
  | fault t f => exact .fault t f
  | read _ ih =>
    cases h' with
    | read h' => exact .read (ih h')
  | write ht' _ ih =>
    cases h' with
    | write _ h' => exact .write ht' (ih h')
  | dispatch hrule hhandler _ ih =>
    cases h' with
    | dispatch hrule' hhandler' hnext' =>
      exact .dispatch ⟨hrule, hrule'⟩ (hhandler.and hhandler') fun action t ht =>
        ih action t ht (hnext' action t ht)

theorem ObeysFrom.bind {p : Program α} {f : α → Program β} (h : p.ObeysFrom good rule R t)
    (ht : good t) (hf : ∀ a, R a → (f a).Obeys good rule R') :
    (p >>= f).ObeysFrom good rule R' t := by
  induction h with
  | done hR => exact hf _ hR _ ht
  | fault t f => exact .fault t f
  | read _ ih => exact .read (ih ht)
  | write ht' _ ih => exact .write ht' (ih ht')
  | dispatch hrule hhandler _ ih =>
    exact .dispatch hrule hhandler fun action t ht => ih action t ht ht

theorem Obeys.bind {p : Program α} {f : α → Program β} (h : p.Obeys good rule R)
    (hf : ∀ a, R a → (f a).Obeys good rule R') : (p >>= f).Obeys good rule R' :=
  fun t ht => (h t ht).bind ht hf

theorem Obeys.pure {a : α} (h : R a) : (pure a : Program α).Obeys good rule R := fun _ _ => .done h

theorem Obeys.ite {c : Prop} [Decidable c] {p q : Program α} (hp : c → p.Obeys good rule R)
    (hq : ¬ c → q.Obeys good rule R) : (if c then p else q).Obeys good rule R := by
  by_cases h : c
  · rw [if_pos h]
    exact hp h
  · rw [if_neg h]
    exact hq h

theorem ObeysFrom.toReaction {R : Action → Prop} {p : Program Action}
    (h : p.ObeysFrom good rule R t) : p.toReaction.ObeysFrom good rule t := by
  induction h with
  | done => exact .done _ _
  | fault t f => exact .fault t f
  | read _ ih => exact .read ih
  | write ht' _ ih => exact .write ht' ih
  | dispatch hrule hhandler _ ih => exact .dispatch hrule hhandler ih

end Program

/-- Events go through a binding point as they come. -/
theorem Handler.Obeys.withBinding {handler : Handler} (h : handler.Obeys good rule given)
    (hrule : ∀ event, given event → rule level tag event) :
    (TerminalUI.withBinding level tag handler).Obeys good rule given := by
  intro event hevent t ht
  have hhandler : (handler event).toReaction.ObeysFrom good rule t := (h event hevent t ht).toReaction
  exact .dispatch (hrule event hevent) hhandler fun action t _ => .done trivial

theorem Component.Obeys.invoke {c : Component} (h : c.Obeys good rule given level) :
    c.invoke.Obeys good rule given level := by
  refine Program.Obeys.bind h fun scene hscene => ?_
  refine Program.Obeys.bind (R := fun _ => True) (fun t _ => .read (.done trivial)) fun r _ => ?_
  cases r with
  | ok message => exact .pure hscene
  | error e => exact .pure hscene

variable {journal : List JournalEntry}

/-- A binding point at which no message is found, under the hook and without one. -/
theorem run_dispatchThrough_movement {handler handler' : Event → UI Action}
    (hrule : DispatchRule.unnoticed good level tag event)
    (h : UI.Same good (fun _ => True) s (handler event) (handler' event)) :
    UI.Same good (fun _ => True) s
      (dispatchThrough (some Hook.movement) level tag event handler)
      (dispatchThrough none level tag event handler') := by
  obtain ⟨hlevel, hevent⟩ := hrule
  refine ⟨?_, h.ends⟩
  have hrun := h.run_eq
  rw [dispatchThrough, dispatchThrough]
  dsimp only
  rw [Hook.movement_eq handler hevent, Hook.transparent]
  rcases hc : (handler' event).run s with ⟨fault | action, s₁⟩
  · rw [hc] at hrun
    rw [run_bind_of_error (run_bind_of_error hrun)]
  · rw [hc] at hrun
    have hnone := hlevel s₁.tree (h.ends hc).1
    have hhook : (do return .ok (← handler event) : UI (Except Error Action)).run s =
        (.ok (.ok action), s₁) := run_bind_of_ok hrun
    rw [run_bind_of_ok hhook]
    dsimp only
    rw [run_bind_of_ok (UI.run_tree s₁), hnone]
    rfl

theorem Reaction.ObeysFrom.same {r : Reaction} (h : r.ObeysFrom good (.unnoticed good) t)
    (ht : good t) :
    UI.Same good (fun _ => True) ⟨t, journal⟩ (r.run (some Hook.movement)) (r.run none) := by
  induction h generalizing journal with
  | done t action => exact .pure ht trivial
  | fault t f => exact .throw f
  | read _ ih => exact .tree_bind (ih ht)
  | write ht' _ ih => exact .setTree_bind (ih ht')
  | dispatch hrule _ _ ihhandler ihnext =>
    refine (run_dispatchThrough_movement hrule (ihhandler ht)).bind ?_
    exact fun action s' hs' _ => ihnext action s'.tree hs' hs'

/-- **A program that does not notice the hook** does the same under it as without one. -/
theorem Program.ObeysFrom.same {p : Program α} (h : p.ObeysFrom good (.unnoticed good) R t)
    (ht : good t) :
    UI.Same good R ⟨t, journal⟩ (p.run (some Hook.movement)) (p.run none) := by
  induction h generalizing journal with
  | done hR => exact .pure ht hR
  | fault t f => exact .throw f
  | read _ ih => exact .tree_bind (ih ht)
  | write ht' _ ih => exact .setTree_bind (ih ht')
  | dispatch hrule hhandler _ ih =>
    refine (run_dispatchThrough_movement hrule (hhandler.same ht)).bind ?_
    exact fun action s' hs' _ => ih action s'.tree hs' hs'

/-! ### Applications -/

namespace Embedded

variable {c : Component} {w w' : Embedded}

/-- Applications of a component, the first with the hook and the second without one, in the same
state. -/
structure Mirrors (good : Tree → Prop) (c : Component) (w w' : Embedded) : Prop where
  application : w.application = ⟨c, some Hook.movement⟩
  application' : w'.application = ⟨c, none⟩
  session : w.session = w'.session
  scene : w.scene = w'.scene
  goodTree : good w'.session.tree
  handler : w'.scene.handler.Unaware good

theorem same_scene (hc : c.Unaware good .root) (hs : good s.tree) :
    UI.Same good (fun scene => scene.handler.Unaware good) s
      (Application.scene ⟨c, some Hook.movement⟩) (Application.scene ⟨c, none⟩) :=
  (Component.Obeys.invoke hc s.tree hs).same hs

theorem Mirrors.seen_eq (h : Mirrors good c w w') (actions : List Action) :
    seen (.ok (actions, w)) = seen (.ok (actions, w')) := by
  have hrender : w.render = w'.render := by
    funext width height
    rw [render, render, h.scene]
  change Except.ok (actions, w.tree, w.render) = Except.ok (actions, w'.tree, w'.render)
  rw [hrender, tree, tree, h.session]

/-- The hook is not noticed while an event is dealt with. -/
theorem Mirrors.dispatch (hc : c.Unaware good .root) (h : Mirrors good c w w')
    (hevent : event.movesDot = false) :
    (∃ f, w.dispatch event = .error f ∧ w'.dispatch event = .error f) ∨
      ∃ action w₁ w₁', w.dispatch event = .ok (action, w₁) ∧ w'.dispatch event = .ok (action, w₁') ∧
        Mirrors good c w₁ w₁' := by
  have hround : UI.Same good (fun r => r.2.handler.Unaware good) w'.session
      (do return (← w.application.react w.scene event, ← w.application.scene))
      (do return (← w'.application.react w'.scene event, ← w'.application.scene)) := by
    rw [h.application, h.application', h.scene]
    have hreact : UI.Same good (fun _ => True) w'.session
        ((w'.scene.handler event).run (some Hook.movement)) ((w'.scene.handler event).run none) :=
      (h.handler event hevent w'.session.tree h.goodTree).same h.goodTree
    refine hreact.bind fun action s hs _ => ?_
    exact (same_scene hc hs).bind fun scene s' hs' hscene => .pure hs' hscene
  rw [Embedded.dispatch, Embedded.dispatch]
  have hrun := hround.run_eq
  rcases hr : ExceptT.run (do return (← w'.application.react w'.scene event,
    ← w'.application.scene) : UI (Action × Scene)) w'.session with ⟨f | ⟨action, scene⟩, s⟩
  · rw [hr, ← h.session] at hrun
    exact .inl ⟨f, refreshAfter_of_error hrun, refreshAfter_of_error hr⟩
  · rw [hr, ← h.session] at hrun
    obtain ⟨hs, hscene⟩ := hround.ends hr
    exact .inr ⟨action, _, _, refreshAfter_of_ok hrun, refreshAfter_of_ok hr,
      h.application, h.application', rfl, rfl, hs, hscene⟩

/-- The hook is not noticed over any events that do not move the dot. -/
theorem Mirrors.seen_dispatchAll (hc : c.Unaware good .root) (h : Mirrors good c w w')
    {events : List Event} (hevents : ∀ event ∈ events, event.movesDot = false) :
    seen (w.dispatchAll events) = seen (w'.dispatchAll events) := by
  induction events generalizing w w' with
  | nil => exact h.seen_eq []
  | cons event events ih =>
    rw [seen_dispatchAll_cons, seen_dispatchAll_cons]
    rcases h.dispatch hc (hevents event List.mem_cons_self) with
      ⟨f, hfault, hfault'⟩ | ⟨action, w₁, w₁', hok, hok', hnext⟩
    · rw [hfault, hfault']
    · rw [hok, hok']
      dsimp only [Except.bind]
      rw [ih hnext fun event hmem => hevents event (List.mem_cons_of_mem _ hmem)]

end Embedded

end TerminalUI
