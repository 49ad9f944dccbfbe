import TerminalUI.Demo.Gallery
import TerminalUI.Hook.Editing
import TerminalUI.Proofs.Application.Agreement
import TerminalUI.Proofs.Demo.Settles

/-!
# Sessions that are resumed

The widgets and the demonstrations settle, so a scene that is made again is the same, and the tree
stays as it is. Whether a scene is made for the first time or again, what comes of it depends on the
tree alone. So an application can be saved as its tree: one that is started on the tree goes on as
the other one would have.

* `Correspondence.sameTree` : sessions with the same tree, of steady components;
* `Embedded.Twins` : applications that go on alike, which they do (`Twins.seen_dispatchAll`);
* `Embedded.resume` : **a scene made again changes nothing, and an application started on the tree of
  another one goes on as that one does.**
-/

namespace TerminalUI

/-- A session is like another one with the same tree, of components of a sort. -/
def Correspondence.sameTree (sort : Blueprint → Bool) : Correspondence where
  sessions s s' := s.tree = s'.tree ∧ s.tree.keepsOnly sort = true
  levels := Eq
  faults := Eq
  faults_refl _ := rfl

namespace Correspondence

variable {sort : Blueprint → Bool} {level : Path}

theorem onePlace_sameTree (sort : Blueprint → Bool) : (sameTree sort).OnePlace sort where
  eq_of_levels h := h
  slot p := {
    resolve := fun hs => by rw [hs.1]
    held := fun hs hv => Tree.keepsOnly_of_resolve hs.2 hv
    update := by
      rintro ⟨t, journal⟩ ⟨_, journal'⟩ v ⟨rfl, ht⟩ hv
      cases hupdate : t.update p v with
      | ok t' => exact .ok ⟨rfl, Tree.keepsOnly_update ht hv hupdate⟩
      | error e => exact .error rfl
    faults := fun h => congrArg Fault.state (h rfl) }

theorem at_sameTree (sort : Blueprint → Bool) (level : Path) :
    (sameTree sort).At sort level level where
  levels _ := rfl
  slot _ _ := (onePlace_sameTree sort).slot _

end Correspondence

open Correspondence

theorem Blueprint.closed_isSteady : Blueprint.Closed (sameTree isSteady) isSteady where
  codeArea := rfl
  listBox := rfl
  blank := rfl
  field := isSteady_field
  list := isSteady_list
  made h := by cases h
  named _ _ _ h := by cases h
  below path v b h := by
    obtain ⟨name, -, hprefix, -⟩ := exists_of_isSteady_seeded h
    rintro rfl
    cases List.prefix_nil.mp hprefix
  onePlace _ := ⟨onePlace_sameTree isSteady, isSteady_labelled⟩

/-! ### Hooks -/

/-- Programs that are alike, run under hooks that do the same. -/
theorem Program.Alike.corresponds {α β : Type} {C : Correspondence} {R : α → β → Prop}
    {hook hook' : Option Hook} {p : Program α} {q : Program β} (h : p.Alike C R q)
    (hhook : C.Hooked hook hook') : UI.Corresponds C R (p.run hook) (q.run hook') :=
  fun s s' hs => (h s s' hs).outcome hhook

namespace UI

variable {α β : Type} {sort : Blueprint → Bool} {R : α → β → Prop}

theorem corresponds_tree_bind {f : Tree → UI α} {f' : Tree → UI β}
    (hf : ∀ t : Tree, t.keepsOnly sort = true → Corresponds (sameTree sort) R (f t) (f' t)) :
    Corresponds (sameTree sort) R (tree >>= f) (tree >>= f') := by
  intro s s' hs
  rw [run_bind_of_ok (run_tree s), run_bind_of_ok (run_tree s'), ← hs.1]
  exact hf s.tree hs.2 s s' hs

theorem corresponds_commit {r : Except Error Tree} (hr : ∀ t, r = .ok t → t.keepsOnly sort = true) :
    Corresponds (sameTree sort) Eq (commit r) (commit r) := by
  intro s s' hs
  cases r with
  | ok t => exact ⟨.ok rfl, rfl, hr t rfl⟩
  | error e => exact ⟨.error rfl, hs⟩

end UI

/-- The hook acts on the state tree alone, and keeps it one of steady components. -/
def Hook.Steady (hook : Option Hook) : Prop := (sameTree Blueprint.isSteady).Hooked hook hook

namespace Hook

theorem steady_none : Steady none := hooked_none _

/-- It is enough what the hook does before the entry for its errors is kept. -/
theorem steady_some {h : Hook}
    (hh : ∀ event level tag (handler handler' : Event → UI Action),
      (∀ e, UI.Corresponds (sameTree Blueprint.isSteady) Eq (handler e) (handler' e)) →
      UI.Corresponds (sameTree Blueprint.isSteady) Eq (h event level tag handler)
        (h event level tag handler')) : Steady (some h) := by
  rintro level _ tag event handler handler' rfl hhandler
  refine (hh event level tag handler handler' hhandler).bind ?_
  rintro (e | action) _ rfl
  · refine UI.corresponds_tree_bind fun t ht => ?_
    have hcommit := UI.corresponds_commit fun t' =>
      Tree.keepsOnly_update (t := t) (p := level.child errorName) (v := .string e.message) ht rfl
    exact hcommit.bind fun _ _ _ => .pure rfl
  · refine UI.corresponds_tree_bind fun t ht => ?_
    dsimp only
    split
    · exact (UI.corresponds_commit fun t' => Tree.keepsOnly_remove ht).bind fun _ _ _ => .pure rfl
    · exact .pure rfl

theorem steady_transparent : Steady (some transparent) :=
  steady_some fun event _ _ _ _ hhandler =>
    (hhandler event).bind fun _ _ h => .pure (congrArg Except.ok h)

theorem move_corresponds (m : Movement) (level : Path) :
    UI.Corresponds (sameTree Blueprint.isSteady) Eq (move m level) (move m level) := by
  have hbuffer := (onePlace_sameTree Blueprint.isSteady).slot (CodeArea.buffer level).path
  have hnone := hooked_none (sameTree Blueprint.isSteady)
  refine (hbuffer.tryGet.corresponds hnone).bind ?_
  rintro _ _ (⟨rfl, -⟩ | hfault)
  · refine ((Program.Alike.ofExcept _).corresponds hnone).bind ?_
    rintro moved _ rfl
    exact ((hbuffer.set rfl).corresponds hnone).bind fun _ _ _ => .pure rfl
  · cases hfault
    exact .pure rfl

theorem movement_corresponds (event : Event) (level : Path) (tag : String)
    {handler handler' : Event → UI Action}
    (hhandler : UI.Corresponds (sameTree Blueprint.isSteady) Eq (handler event) (handler' event)) :
    UI.Corresponds (sameTree Blueprint.isSteady) Eq (movement event level tag handler)
      (movement event level tag handler') := by
  refine hhandler.bind ?_
  rintro action _ rfl
  split
  · exact .pure rfl
  · split
    · exact move_corresponds _ level
    · exact .pure rfl

theorem steady_movement : Steady (some movement) :=
  steady_some fun event level tag _ _ hhandler =>
    movement_corresponds event level tag (hhandler event)

theorem steady_submission : Steady (some submission) := by
  refine steady_some fun event level tag handler handler' hhandler => ?_
  have hmovement := movement_corresponds event level tag (hhandler event)
  have hpasting := (onePlace_sameTree Blueprint.isSteady).slot (CodeArea.pasting level).path
  unfold submission
  split
  · refine ((hpasting.getD false).corresponds (hooked_none _)).bind ?_
    rintro pasting _ rfl
    split
    · exact hmovement
    · exact .pure rfl
  · exact hmovement

end Hook

/-! ### Going on alike -/

namespace Embedded

variable {w w' w₀ : Embedded} {b : Blueprint} {hook : Option Hook}

/-- Applications with the same tree, that show the same and go on alike. -/
structure Twins (b : Blueprint) (hook : Option Hook) (w w' : Embedded) : Prop where
  application : w.application = ⟨b.start, hook⟩
  application' : w'.application = ⟨b.start, hook⟩
  sessions : (sameTree Blueprint.isSteady).sessions w.session w'.session
  scene : w.scene.Alike (sameTree Blueprint.isSteady) w'.scene

/-- What can be seen of a run: the actions, the tree, and what is shown at every size. -/
def seen (r : Except Fault (List Action × Embedded)) :
    Except Fault (List Action × Tree × (Nat → Nat → Frame)) :=
  r.map fun (actions, w) => (actions, w.tree, w.render)

theorem scene_corresponds (hb : b.keepsOnly Blueprint.isSteady = true) (hhook : Hook.Steady hook) :
    UI.Corresponds (sameTree Blueprint.isSteady) (Scene.Alike (sameTree Blueprint.isSteady))
      (Application.scene ⟨b.start, hook⟩) (Application.scene ⟨b.start, hook⟩) := by
  have hat := at_sameTree Blueprint.isSteady .root
  have hportable := Blueprint.component_portable Blueprint.closed_isSteady Blueprint.nestingLimit hb
  have hscene := (hat.entry errorName).invoke (hportable .root .root hat)
  exact hscene.corresponds hhook

theorem refreshAfter_of_ok {α : Type} {action : UI α} {a : α} {scene : Scene} {s : Session}
    (h : (do return (← action, ← w.application.scene) : UI (α × Scene)).run w.session =
      (.ok (a, scene), s)) :
    w.refreshAfter action = .ok (a, { w with session := s, scene := scene }) := by
  unfold refreshAfter
  rw [h]

theorem refreshAfter_of_error {α : Type} {action : UI α} {f : Fault} {s : Session}
    (h : (do return (← action, ← w.application.scene) : UI (α × Scene)).run w.session =
      (.error f, s)) : w.refreshAfter action = .error f := by
  unfold refreshAfter
  rw [h]

/-- Twins deal with an event in the same way, and are twins again. -/
theorem Twins.dispatch (hb : b.keepsOnly Blueprint.isSteady = true) (hhook : Hook.Steady hook)
    (h : Twins b hook w w') (event : Event) :
    (sameTree Blueprint.isSteady).Outcome (fun r r' => r.1 = r'.1 ∧ Twins b hook r.2 r'.2)
      (w.dispatch event) (w'.dispatch event) := by
  have hround : UI.Corresponds (sameTree Blueprint.isSteady)
      (fun r r' => r.1 = r'.1 ∧ r.2.Alike (sameTree Blueprint.isSteady) r'.2)
      (do return (← w.application.react w.scene event, ← w.application.scene))
      (do return (← w'.application.react w'.scene event, ← w'.application.scene)) := by
    rw [h.application, h.application']
    refine ((h.scene.handler event).corresponds hhook).bind ?_
    rintro action _ rfl
    exact (scene_corresponds hb hhook).bind fun scene scene' hscene => .pure ⟨rfl, hscene⟩
  obtain ⟨houtcome, hsessions⟩ := hround w.session w'.session h.sessions
  rcases hr : ExceptT.run (do return (← w.application.react w.scene event,
    ← w.application.scene) : UI (Action × Scene)) w.session with ⟨r, s⟩
  rcases hr' : ExceptT.run (do return (← w'.application.react w'.scene event,
    ← w'.application.scene) : UI (Action × Scene)) w'.session with ⟨r', s'⟩
  rw [hr, hr'] at houtcome hsessions
  rw [Embedded.dispatch, Embedded.dispatch]
  cases houtcome with
  | ok hresult =>
    rw [refreshAfter_of_ok hr, refreshAfter_of_ok hr']
    exact .ok ⟨hresult.1, h.application, h.application', hsessions, hresult.2⟩
  | error hfault =>
    rw [refreshAfter_of_error hr, refreshAfter_of_error hr']
    exact .error hfault

theorem seen_dispatchAll_cons (w : Embedded) (event : Event) (events : List Event) :
    seen (w.dispatchAll (event :: events)) = (w.dispatch event).bind fun (action, w₁) =>
      (seen (w₁.dispatchAll events)).map fun (actions, rest) => (action :: actions, rest) := by
  rw [dispatchAll]
  cases w.dispatch event with
  | error f => rfl
  | ok r =>
    change seen (r.2.dispatchAll events >>= _) = (seen (r.2.dispatchAll events)).map _
    cases r.2.dispatchAll events <;> rfl

/-- Twins stay twins over any events. -/
theorem Twins.seen_dispatchAll (hb : b.keepsOnly Blueprint.isSteady = true)
    (hhook : Hook.Steady hook) (h : Twins b hook w w') (events : List Event) :
    seen (w.dispatchAll events) = seen (w'.dispatchAll events) := by
  induction events generalizing w w' with
  | nil =>
    have htree : w.tree = w'.tree := h.sessions.1
    have hrender : w.render = w'.render := by
      funext width height
      rw [render, render, h.scene.view]
    change Except.ok ([], w.tree, w.render) = Except.ok ([], w'.tree, w'.render)
    rw [htree, hrender]
  | cons event events ih =>
    have hdispatch := h.dispatch hb hhook event
    rw [seen_dispatchAll_cons, seen_dispatchAll_cons]
    generalize w.dispatch event = r at hdispatch ⊢
    generalize w'.dispatch event = r' at hdispatch ⊢
    cases hdispatch with
    | error hfault => rw [hfault]
    | ok hnext =>
      dsimp only [Except.bind]
      rw [hnext.1, ih hnext.2]

/-- The application shows a scene that is made again on its tree, and changes nothing there. -/
structure Rested (b : Blueprint) (hook : Option Hook) (w : Embedded) : Prop where
  twins : Twins b hook w w
  again : ∀ journal, (Application.scene ⟨b.start, hook⟩).run ⟨w.tree, journal⟩ =
    (.ok w.scene, ⟨w.tree, journal⟩)

/-- What has just made its scene is rested. -/
theorem rested_of_run_scene (hb : b.keepsOnly Blueprint.isSteady = true)
    (hhook : Hook.Steady hook) {s s' : Session} {scene : Scene}
    (hs : s.tree.keepsOnly Blueprint.isSteady = true)
    (hrun : (Application.scene ⟨b.start, hook⟩).run s = (.ok scene, s')) :
    Rested b hook ⟨⟨b.start, hook⟩, s', scene⟩ where
  twins := by
    obtain ⟨houtcome, hsessions⟩ := scene_corresponds hb hhook s s ⟨rfl, hs⟩
    rw [hrun] at houtcome hsessions
    cases houtcome with
    | ok hscene => exact ⟨rfl, rfl, hsessions, hscene⟩
  again journal := by
    have hsettled : (b.start.invoke .root).Settles hook Blueprint.isSteady .root
        {name | name ≠ componentName} Set.univ :=
      (Blueprint.component_settled Blueprint.nestingLimit hb).invoke .root
    exact hsettled.rests hs hrun (fun _ _ => rfl) (.refl _ _)

theorem Rested.dispatch (hb : b.keepsOnly Blueprint.isSteady = true) (hhook : Hook.Steady hook)
    (h : Rested b hook w) {event : Event} {action : Action}
    (hdispatch : w.dispatch event = .ok (action, w')) : Rested b hook w' := by
  obtain ⟨s, hreact, hscene, happ⟩ := exists_run_of_dispatch_eq_ok hdispatch
  rw [h.twins.application] at hreact hscene happ
  have hhandler : ((w.scene.handler event).run hook).run w.session = (.ok action, s) := hreact
  obtain ⟨-, hsessions⟩ :=
    (h.twins.scene.handler event).corresponds hhook w.session w.session h.twins.sessions
  rw [hhandler] at hsessions
  have hs : s.tree.keepsOnly Blueprint.isSteady = true := hsessions.2
  obtain ⟨app, session, scene⟩ := w'
  cases happ
  exact rested_of_run_scene hb hhook hs hscene

theorem Rested.dispatchAll (hb : b.keepsOnly Blueprint.isSteady = true)
    (hhook : Hook.Steady hook) (h : Rested b hook w) {events : List Event} {actions : List Action}
    (hrun : w.dispatchAll events = .ok (actions, w')) : Rested b hook w' := by
  induction events generalizing w actions with
  | nil =>
    cases hrun
    exact h
  | cons event events ih =>
    obtain ⟨action, w₁, rest, hdispatch, hrest, -⟩ := exists_of_dispatchAll_cons_eq_ok hrun
    exact ih (h.dispatch hb hhook hdispatch) hrest

/-- Starts an application on a tree and gives events to it, one after the other. -/
def runFrom (app : Application) (tree : Tree) (events : List Event) :
    Except Fault (List Action × Embedded) := do
  (← start app tree).dispatchAll events

theorem rested_of_runFrom (hb : b.keepsOnly Blueprint.isSteady = true) (hhook : Hook.Steady hook)
    {tree : Tree} (htree : tree.keepsOnly Blueprint.isSteady = true) {events : List Event}
    {actions : List Action} (hrun : runFrom ⟨b.start, hook⟩ tree events = .ok (actions, w)) :
    Rested b hook w := by
  rcases hscene : (Application.scene ⟨b.start, hook⟩).run { tree := tree } with ⟨f | scene, s⟩
  · rw [runFrom, start, hscene] at hrun
    cases hrun
  · have hrested := rested_of_run_scene hb hhook htree hscene
    rw [runFrom, start, hscene] at hrun
    exact hrested.dispatchAll hb hhook hrun

/-- **Scenes are pure, and sessions can be resumed.** A widget or a demonstration, wrapped or with
seeds, runs from a tree of such components under a hook that acts on the tree alone. Whatever events
it was given, its scene made again is the same, which shows the same at every size, and the session
is left as it is. The same component, started on the tree that was reached, succeeds, and over all
further events it gives the same actions, leaves the same trees and shows the same at every size as
the one that went on, and faults where that one does. -/
theorem resume (hb : b.keepsOnly Blueprint.isSteady = true) (hhook : Hook.Steady hook) {tree : Tree}
    (htree : tree.keepsOnly Blueprint.isSteady = true) {before : List Event} {actions : List Action}
    (hrun : runFrom ⟨b.start, hook⟩ tree before = .ok (actions, w)) :
    (Application.scene ⟨b.start, hook⟩).run w.session = (.ok w.scene, w.session) ∧
      ∃ w', start ⟨b.start, hook⟩ w.tree = .ok w' ∧
        ∀ events, seen (w'.dispatchAll events) = seen (w.dispatchAll events) := by
  have hrested := rested_of_runFrom hb hhook htree hrun
  refine ⟨hrested.again w.session.journal, ⟨⟨b.start, hook⟩, ⟨w.tree, []⟩, w.scene⟩, ?_, ?_⟩
  · rw [start, hrested.again []]
  · intro events
    have htwins : Twins b hook ⟨⟨b.start, hook⟩, ⟨w.tree, []⟩, w.scene⟩ w :=
      ⟨rfl, hrested.twins.application, hrested.twins.sessions, hrested.twins.scene⟩
    exact htwins.seen_dispatchAll hb hhook events

/-- A combo box of fruits, wrapped, in which something was typed and chosen. -/
theorem resume_fruit_box :
    let b := Gallery.fruitBox.wrap
    let hook : Option Hook := some Hook.movement
    let events : List Event := [.key (.typed 'a'), .key { code := .down }, .key { code := .left }]
    b.keepsOnly Blueprint.isSteady = true ∧ Hook.Steady hook ∧
      ∃ actions w, runFrom ⟨b.start, hook⟩ .empty events = .ok (actions, w) ∧
        (Application.scene ⟨b.start, hook⟩).run w.session = (.ok w.scene, w.session) ∧
        ∃ w', start ⟨b.start, hook⟩ w.tree = .ok w' ∧
          ∀ events, seen (w'.dispatchAll events) = seen (w.dispatchAll events) := by
  intro b hook events
  have hb : b.keepsOnly Blueprint.isSteady = true := by decide +kernel
  have hok : (runFrom ⟨b.start, hook⟩ .empty events).isOk := by decide +kernel
  cases hrun : runFrom ⟨b.start, hook⟩ .empty events with
  | error f =>
    rw [hrun] at hok
    cases hok
  | ok r =>
    exact ⟨hb, Hook.steady_movement, r.1, r.2, rfl, resume hb Hook.steady_movement rfl hrun⟩

end Embedded

end TerminalUI
