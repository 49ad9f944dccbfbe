import TerminalUI.Application.Embedded
import TerminalUI.Proofs.Application.Rounds
import TerminalUI.Terminal.Script

/-!
# Runs and embedded applications agree

An application that runs on a terminal makes its scene at the start of a round, and one that is
embedded makes it right after an event. Here the two are followed side by side, on a terminal that
plays a list of events.

* `Loop.Awaits` : the run is about to make the scene that the embedded application holds;
* `Loop.Awaits.round_action` : it is so again after an event that does not end the run;
* `Loop.Awaits.run_rounds` : and after any number of them, with the same actions;
* `Application.runOn_script_agrees` : so the frames, the actions and the end of a run are those of
  the embedded application.
-/

namespace TerminalUI

/-- The size of a terminal after an event. -/
def Size.next (size : Size) : Event → Size
  | .resize rows columns => ⟨rows, columns⟩
  | _ => size

/-- The size of a terminal after events. -/
def Size.after (size : Size) (events : List Event) : Size := events.foldl Size.next size

namespace Embedded

variable {w w' : Embedded} {event : Event} {action : Action} {f : Fault} {s s' : Session}

/-- Starts an application and gives events to it, one after the other. -/
def after (app : Application) (events : List Event) : Except Fault (List Action × Embedded) := do
  (← start app).dispatchAll events

/-- What the application shows at the size of a terminal. -/
def frameAt (w : Embedded) (size : Size) : Frame := w.render size.columns size.rows

theorem run_scene_of_start_eq_ok {app : Application} (h : start app = .ok w) :
    w.application = app ∧ app.scene.run {} = (.ok w.scene, w.session) := by
  unfold start at h
  rcases hscene : app.scene.run {} with ⟨f | scene, s⟩ <;> rw [hscene] at h <;> cases h
  exact ⟨rfl, rfl⟩

theorem run_scene_of_start_eq_error {app : Application} (h : start app = .error f) :
    ∃ s, app.scene.run {} = (.error f, s) := by
  unfold start at h
  rcases hscene : app.scene.run {} with ⟨f | scene, s⟩ <;> rw [hscene] at h <;> cases h
  exact ⟨s, rfl⟩

theorem dispatch_of_error (h : (w.application.react w.scene event).run w.session = (.error f, s)) :
    w.dispatch event = .error f := by
  unfold dispatch refreshAfter
  rw [run_bind_of_error h]

/-- After the handler, the next scene is made. -/
theorem dispatch_of_ok (h : (w.application.react w.scene event).run w.session = (.ok action, s)) :
    w.dispatch event = match w.application.scene.run s with
      | (.ok scene, session) => .ok (action, { w with session, scene })
      | (.error f, _) => .error f := by
  unfold dispatch refreshAfter
  rw [run_bind_of_ok h]
  rcases hscene : w.application.scene.run s with ⟨f | scene, s'⟩
  · rw [run_bind_of_error hscene]
  · rw [run_bind_of_ok hscene]
    rfl

theorem exists_run_of_dispatch_eq_ok (h : w.dispatch event = .ok (action, w')) :
    ∃ s, (w.application.react w.scene event).run w.session = (.ok action, s) ∧
      w.application.scene.run s = (.ok w'.scene, w'.session) ∧ w'.application = w.application := by
  rcases hreact : (w.application.react w.scene event).run w.session with ⟨f | a, s⟩
  · rw [dispatch_of_error hreact] at h
    cases h
  rw [dispatch_of_ok hreact] at h
  rcases hscene : w.application.scene.run s with ⟨f | scene, s'⟩ <;> rw [hscene] at h <;> cases h
  exact ⟨s, rfl, hscene, rfl⟩

theorem exists_of_dispatchAll_cons_eq_ok {events : List Event} {actions : List Action}
    (h : w.dispatchAll (event :: events) = .ok (actions, w')) :
    ∃ action w₁ rest, w.dispatch event = .ok (action, w₁) ∧
      w₁.dispatchAll events = .ok (rest, w') ∧ actions = action :: rest := by
  rw [dispatchAll] at h
  rcases hdispatch : w.dispatch event with f | ⟨action, w₁⟩ <;> rw [hdispatch] at h
  · cases h
  rcases hrest : w₁.dispatchAll events with f | ⟨rest, w₂⟩
  · change (w₁.dispatchAll events >>= _) = _ at h
    rw [hrest] at h
    cases h
  · change (w₁.dispatchAll events >>= _) = _ at h
    rw [hrest] at h
    cases h
    exact ⟨action, w₁, rest, rfl, hrest, rfl⟩

end Embedded

namespace Script

variable {d : Script} {event : Event} {rest : List Event}

theorem run_readEvent_of_nil (h : d.events = []) :
    terminal.readEvent.run d = (.error (.terminal "event script exhausted"), d) := by
  obtain ⟨events, size, frames, setups, restores⟩ := d
  cases h
  rfl

theorem run_readEvent_of_cons (h : d.events = event :: rest) :
    terminal.readEvent.run d =
      (.ok event, { d with events := rest, size := d.size.next event }) := by
  obtain ⟨events, size, frames, setups, restores⟩ := d
  cases h
  cases event <;> rfl

theorem frames_of_run_readEvent {d' : Script} {r : Except Error Event}
    (h : terminal.readEvent.run d = (r, d')) : d'.frames = d.frames := by
  cases hevents : d.events with
  | nil =>
    rw [run_readEvent_of_nil hevents] at h
    cases h
    rfl
  | cons event rest =>
    rw [run_readEvent_of_cons hevents] at h
    cases h
    rfl

end Script

namespace Loop

open Embedded

/-- A run on a scripted terminal is about to make the scene that an embedded application holds. -/
structure Awaits (app : Application) (w : Embedded) (p : Progress Script) : Prop where
  application_eq : w.application = app
  run_scene : app.scene.run p.session = (.ok w.scene, w.session)

variable {app : Application} {w w' : Embedded} {p p' : Progress Script} {event : Event}
  {rest : List Event} {action : Action} {s : Session} {f : Fault}

/-- A scripted terminal after the frame of a round. -/
def drawn (w : Embedded) (p : Progress Script) : Script :=
  { p.device with
    frames := p.device.frames ++ [⟨w.frameAt p.device.size, p.full, p.shown⟩] }

theorem Awaits.presents (h : Awaits app w p) :
    Presents app Script.terminal p w.scene p.device.size
      ⟨drawn w p, w.session, some (w.frameAt p.device.size), p.full⟩ := by
  obtain ⟨d, s, shown, full⟩ := p
  exact .intro h.run_scene rfl rfl

/-! ### The next round -/

theorem Awaits.round_exhausted (h : Awaits app w p) (hevents : p.device.events = []) :
    Round app {} Script.terminal p (.error (.failed (.terminal "event script exhausted")))
      ⟨drawn w p, w.session, some (w.frameAt p.device.size), p.full⟩ :=
  .noEvent h.presents (Script.run_readEvent_of_nil hevents)

theorem Awaits.round_fault (h : Awaits app w p) (hevents : p.device.events = event :: rest)
    (hreact : (app.react w.scene event).run w.session = (.error f, s)) :
    ∃ p', Round app {} Script.terminal p (.error (.crashed f)) p' ∧
      p'.device.frames = (drawn w p).frames :=
  ⟨_, .noReaction h.presents (Script.run_readEvent_of_cons hevents) hreact, rfl⟩

theorem Awaits.round_exit (h : Awaits app w p) (hevents : p.device.events = event :: rest)
    (hreact : (app.react w.scene event).run w.session = (.ok .exit, s)) :
    ∃ p', Round app {} Script.terminal p (.error (.exited s.tree)) p' ∧
      p'.device.frames = (drawn w p).frames ++
        [⟨.empty p.device.size.columns, false, some (w.frameAt p.device.size)⟩] :=
  ⟨_, .exits h.presents (Script.run_readEvent_of_cons hevents) hreact rfl, rfl⟩

theorem Awaits.round_action (h : Awaits app w p) (hevents : p.device.events = event :: rest)
    (hreact : (app.react w.scene event).run w.session = (.ok action, s)) (hne : action ≠ .exit) :
    ∃ p', Round app {} Script.terminal p (.ok action) p' ∧ p'.session = s ∧
      p'.device.events = rest ∧ p'.device.size = p.device.size.next event ∧
      p'.device.frames = (drawn w p).frames :=
  ⟨_, .goesOn h.presents (Script.run_readEvent_of_cons hevents) hreact hne, rfl, rfl, rfl, rfl⟩

/-! ### What was drawn stays drawn -/

theorem Presents.frames_prefix {scene : Scene} {size : Size} {d d' : Script} {shown : Option Frame}
    {full : Bool} {r : Except Error Event}
    (h : Presents app Script.terminal p scene size ⟨d, s, shown, full⟩)
    (hread : Script.terminal.readEvent.run d = (r, d')) : p.device.frames <+: d'.frames := by
  rw [Script.frames_of_run_readEvent hread]
  cases h with
  | intro _ hsize hdraw =>
    cases hsize
    cases hdraw
    exact List.prefix_append _ _

theorem Round.frames_prefix {options : RunOptions} {r : Except Ending Action}
    (h : Round app options Script.terminal p r p') : p.device.frames <+: p'.device.frames := by
  cases h with
  | noScene => exact List.prefix_rfl
  | noSize _ hsize => cases hsize
  | notShown _ _ hdraw => cases hdraw
  | noEvent hshown hread | noReaction hshown hread | goesOn hshown hread =>
    exact hshown.frames_prefix hread
  | exits hshown hread _ hclear =>
    cases hclear
    exact (hshown.frames_prefix hread).trans (List.prefix_append _ _)
  | notCleared _ _ _ hclear => cases hclear

theorem frames_prefix_run_rounds (app : Application) (options : RunOptions) (n : Nat)
    (p : Progress Script) :
    p.device.frames <+: ((rounds app options Script.terminal n).run p).2.device.frames := by
  induction n generalizing p with
  | zero => exact List.prefix_rfl
  | succ n ih =>
    obtain ⟨r, p₁, hround⟩ := exists_round app options Script.terminal p
    refine hround.frames_prefix.trans ?_
    cases r with
    | error => exact ⟨[], by rw [List.append_nil, run_rounds_of_error hround]⟩
    | ok =>
      rw [run_rounds_of_ok hround]
      exact ih p₁

theorem Awaits.exists_round (h : Awaits app w p) :
    ∃ r p', Round app {} Script.terminal p r p' ∧ (drawn w p).frames <+: p'.device.frames := by
  cases hevents : p.device.events with
  | nil => exact ⟨_, _, h.round_exhausted hevents, List.prefix_rfl⟩
  | cons event rest =>
    rcases hreact : (app.react w.scene event).run w.session with ⟨f | action, s⟩
    · obtain ⟨p', hround, hframes⟩ := h.round_fault hevents hreact
      exact ⟨_, p', hround, hframes ▸ List.prefix_rfl⟩
    by_cases hexit : action = .exit
    · subst hexit
      obtain ⟨p', hround, hframes⟩ := h.round_exit hevents hreact
      exact ⟨_, p', hround, hframes ▸ List.prefix_append _ _⟩
    · obtain ⟨p', hround, -, -, -, hframes⟩ := h.round_action hevents hreact hexit
      exact ⟨_, p', hround, hframes ▸ List.prefix_rfl⟩

/-- Whatever comes of the next round, its frame is drawn. -/
theorem Awaits.frames_prefix (h : Awaits app w p) (n : Nat) :
    (drawn w p).frames <+: ((rounds app {} Script.terminal (n + 1)).run p).2.device.frames := by
  obtain ⟨r, p', hround, hframes⟩ := h.exists_round
  refine hframes.trans ?_
  cases r with
  | error => exact ⟨[], by rw [List.append_nil, run_rounds_of_error hround]⟩
  | ok =>
    rw [run_rounds_of_ok hround]
    exact frames_prefix_run_rounds app {} n p'

/-! ### Any number of events -/

/-- Events that do not end the run take both to where they agree again, with the same actions. -/
theorem Awaits.run_rounds {before : List Event} {actions : List Action} (h : Awaits app w p)
    (hevents : p.device.events = before ++ rest)
    (hall : w.dispatchAll before = .ok (actions, w')) (hexit : .exit ∉ actions) :
    ∃ p', (rounds app {} Script.terminal before.length).run p = (.ok actions, p') ∧
      Awaits app w' p' ∧ p'.device.events = rest ∧ p'.device.size = p.device.size.after before ∧
      p'.device.frames.length = p.device.frames.length + before.length := by
  induction before generalizing w p actions with
  | nil =>
    cases hall
    exact ⟨p, rfl, h, hevents, rfl, rfl⟩
  | cons event before ih =>
    obtain ⟨action, w₁, more, hdispatch, hmore, rfl⟩ := exists_of_dispatchAll_cons_eq_ok hall
    obtain ⟨hne, hexit⟩ := List.ne_and_not_mem_of_not_mem_cons hexit
    obtain ⟨s, hreact, hscene, happlication⟩ := exists_run_of_dispatch_eq_ok hdispatch
    rw [h.application_eq] at hreact hscene happlication
    obtain ⟨p₁, hround, rfl, hevents₁, hsize₁, hframes₁⟩ :=
      h.round_action hevents hreact hne.symm
    have hawaits : Awaits app w₁ p₁ := ⟨happlication, hscene⟩
    obtain ⟨p', hrun, hawaits', hrest, hsize, hlength⟩ := ih hawaits hevents₁ hmore hexit
    refine ⟨p', ?_, hawaits', hrest, ?_, ?_⟩
    · rw [List.length_cons, run_rounds_of_ok hround, hrun]
      rfl
    · rw [hsize, hsize₁]
      rfl
    · rw [hlength, hframes₁]
      simp only [drawn, List.length_append, List.length_cons, List.length_nil]
      omega

/-- An event at which the embedded application faults, in the handler or in the next scene, is one
at which the run does. -/
theorem Awaits.run_rounds_fault (h : Awaits app w p) (hevents : p.device.events = event :: rest)
    (hdispatch : w.dispatch event = .error f)
    (hne : ∀ s, (app.react w.scene event).run w.session ≠ (.ok .exit, s)) (n : Nat) :
    ∃ p', (rounds app {} Script.terminal (n + 2)).run p = (.error (.crashed f), p') ∧
      p'.device.frames = (drawn w p).frames := by
  rcases hreact : (app.react w.scene event).run w.session with ⟨e | action, s⟩
  · rw [← h.application_eq] at hreact
    rw [dispatch_of_error hreact] at hdispatch
    cases hdispatch
    rw [h.application_eq] at hreact
    obtain ⟨p', hround, hframes⟩ := h.round_fault hevents hreact
    exact ⟨p', run_rounds_of_error hround, hframes⟩
  have hexit : action ≠ .exit := by
    rintro rfl
    exact hne s hreact
  obtain ⟨⟨d, s', shown, full⟩, hround, rfl, -, -, hframes⟩ := h.round_action hevents hreact hexit
  rw [← h.application_eq] at hreact
  rw [dispatch_of_ok hreact, h.application_eq] at hdispatch
  rcases hscene : app.scene.run s' with ⟨e | scene, s₁⟩ <;> rw [hscene] at hdispatch <;>
    cases hdispatch
  refine ⟨⟨d, s₁, shown, full⟩, ?_, hframes⟩
  rw [run_rounds_of_ok hround, run_rounds_of_error (.noScene hscene)]
  rfl

end Loop

namespace Application

open Loop Embedded

variable {app : Application} {events before rest : List Event} {size : Size}
  {actions : List Action} {w : Embedded} {ending : Ending} {k m : Nat} {p p' : Progress Script}

/-! ### A whole run -/

/-- A run on a scripted terminal that has just been taken over. -/
def atStart (events : List Event) (size : Size) : Progress Script :=
  { device := { events, size, setups := 1 } }

theorem frames_runOn_script (app : Application) (n : Nat) :
    (app.runOn {} Script.terminal n { events, size }).device.frames =
      ((rounds app {} Script.terminal n).run (atStart events size)).2.device.frames := by
  have hsetup : Script.terminal.setup.run { events, size } =
      (.ok (), (atStart events size).device) := rfl
  rcases hrounds : (rounds app {} Script.terminal n).run (atStart events size) with
    ⟨ending | actions, p⟩
  · rw [runOn_of_rounds_error hsetup hrounds]
    rfl
  · rw [runOn_of_rounds_ok hsetup hrounds]

/-- A run that ends in the rounds after some that went through. -/
theorem runOn_script_of_run_rounds
    (hrun : (rounds app {} Script.terminal k).run (atStart events size) = (.ok actions, p))
    (hend : (rounds app {} Script.terminal m).run p = (.error ending, p')) :
    (app.runOn {} Script.terminal (k + m) { events, size }).ending = some ending ∧
      (app.runOn {} Script.terminal (k + m) { events, size }).device.frames = p'.device.frames := by
  have hsetup : Script.terminal.setup.run { events, size } =
      (.ok (), (atStart events size).device) := rfl
  have hrounds := run_rounds_add hrun m
  rw [hend] at hrounds
  rw [runOn_of_rounds_error hsetup hrounds]
  exact ⟨rfl, rfl⟩

/-- Both agree after events that do not end the run. -/
theorem exists_awaits (rest : List Event) (size : Size)
    (hafter : Embedded.after app before = .ok (actions, w)) (hexit : .exit ∉ actions) :
    ∃ p, (rounds app {} Script.terminal before.length).run (atStart (before ++ rest) size) =
        (.ok actions, p) ∧
      Awaits app w p ∧ p.device.events = rest ∧ p.device.size = size.after before ∧
      p.device.frames.length = before.length := by
  rcases hstart : start app with f | w₀
  · rw [Embedded.after, hstart] at hafter
    cases hafter
  obtain ⟨happlication, hscene⟩ := run_scene_of_start_eq_ok hstart
  rw [Embedded.after, hstart] at hafter
  have hawaits : Awaits app w₀ (atStart (before ++ rest) size) := ⟨happlication, hscene⟩
  obtain ⟨p, hrun, hawaits', hevents, hsize, hlength⟩ := hawaits.run_rounds rfl hafter hexit
  exact ⟨p, hrun, hawaits', hevents, hsize, by rw [hlength]; exact Nat.zero_add _⟩

/-- **A run and an embedded application agree.** On a terminal that plays a list of events, frame
`k` of the run is what the application shows, embedded, after the first `k` events, at the size that
the terminal has then, and their handlers give the same actions. The run ends at the first event
that the handler ends it for, with the state that the handler left. If there is none, the terminal
fails after one frame more than there are events. Where the application faults, both fault. -/
theorem runOn_script_agrees (app : Application) (events : List Event) (size : Size)
    (extra : Nat) :
    let script : Script := { events, size }
    let report := app.runOn {} Script.terminal (script.rounds + extra) script
    (∀ f, Embedded.start app = .error f →
      report.ending = some (.crashed f) ∧ report.device.frames = []) ∧
    ∀ before rest actions w, events = before ++ rest →
      Embedded.after app before = .ok (actions, w) → .exit ∉ actions →
      (report.device.frames[before.length]?).map Drawn.frame =
        some (w.frameAt (size.after before)) ∧
      (∃ p, (rounds app {} Script.terminal before.length).run (atStart events size) =
        (.ok actions, p)) ∧
      (rest = [] →
        report.ending = some (.failed (.terminal "event script exhausted")) ∧
          report.device.frames.length = events.length + 1) ∧
      ∀ event later, rest = event :: later →
        (∀ s, (app.react w.scene event).run w.session = (.ok .exit, s) →
          report.ending = some (.exited s.tree) ∧
            report.device.frames.length = before.length + 2) ∧
        (∀ f, w.dispatch event = .error f →
          (∀ s, (app.react w.scene event).run w.session ≠ (.ok .exit, s)) →
          report.ending = some (.crashed f) ∧
            report.device.frames.length = before.length + 1) := by
  intro script report
  refine ⟨fun f hstart => ?_, fun before rest actions w hevents hafter hexit => ?_⟩
  · obtain ⟨s, hscene⟩ := run_scene_of_start_eq_error hstart
    have hround : Round app {} Script.terminal (atStart events size) (.error (.crashed f))
      { atStart events size with session := s } := .noScene hscene
    have hend := run_rounds_of_error hround (n := events.length + extra)
    have hreport := runOn_script_of_run_rounds (k := 0) rfl hend
    rwa [Nat.zero_add, Nat.add_right_comm] at hreport
  subst hevents
  obtain ⟨p, hrun, hawaits, hrest, hsize, hlength⟩ := exists_awaits rest size hafter hexit
  have hrounds : script.rounds + extra = before.length + (rest.length + extra + 1) := by
    simp only [Script.rounds, script, List.length_append]
    omega
  have hreport : ∀ ending p',
      (rounds app {} Script.terminal (rest.length + extra + 1)).run p = (.error ending, p') →
      report.ending = some ending ∧ report.device.frames = p'.device.frames := by
    intro ending p' hend
    simp only [report, hrounds]
    exact runOn_script_of_run_rounds hrun hend
  have hdrawn : (drawn w p).frames.length = before.length + 1 := by
    simp only [drawn, List.length_append, List.length_singleton, hlength]
  refine ⟨?_, ⟨p, hrun⟩, ?_, ?_⟩
  · have hprefix : (drawn w p).frames <+: report.device.frames := by
      simp only [report, hrounds]
      rw [frames_runOn_script, run_rounds_add hrun]
      exact hawaits.frames_prefix _
    obtain ⟨later, hlater⟩ := hprefix
    rw [← hlater, ← hlength, drawn, ← hsize]
    simp
  · rintro rfl
    obtain ⟨hending, hframes⟩ :=
      hreport _ _ (run_rounds_of_error (hawaits.round_exhausted hrest))
    rw [hframes, List.append_nil]
    exact ⟨hending, hdrawn⟩
  · rintro event later rfl
    refine ⟨fun s hreact => ?_, fun f hdispatch hne => ?_⟩
    · obtain ⟨p', hround, hframes'⟩ := hawaits.round_exit hrest hreact
      obtain ⟨hending, hframes⟩ := hreport _ _ (run_rounds_of_error hround)
      rw [hframes, hframes', List.length_append, hdrawn]
      exact ⟨hending, rfl⟩
    · obtain ⟨p', hend, hframes'⟩ :=
        hawaits.run_rounds_fault hrest hdispatch hne (later.length + extra)
      have hmore : later.length + extra + 2 = (event :: later).length + extra + 1 := by
        rw [List.length_cons]
        omega
      rw [hmore] at hend
      obtain ⟨hending, hframes⟩ := hreport _ _ hend
      rw [hframes, hframes']
      exact ⟨hending, hdrawn⟩

end Application

end TerminalUI
