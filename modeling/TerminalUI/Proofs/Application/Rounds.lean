import TerminalUI.Application.Run
import TerminalUI.Proofs.Program.Running

/-!
# Rounds of a run

What one round of a run on a terminal can come to, said once for every terminal: `Loop.Round` has a
rule for each operation that may fail, for each part of the application that may fault, for the end
of the run and for the round that goes through. Every round is one of these (`Loop.exists_round`),
and each of them is what the loop does (`Loop.Round.run_eq`).
-/

namespace TerminalUI

/-- A step that failed is the end, whatever was to follow. -/
theorem run_bind_of_error {ε σ α β : Type} {c : ExceptT ε (StateM σ) α}
    {f : α → ExceptT ε (StateM σ) β} {s s' : σ} {e : ε} (h : c.run s = (.error e, s')) :
    (c >>= f).run s = (.error e, s') := by
  change (match c.run s with | (r, s') => ExceptT.bindCont f r s') = _
  rw [h]
  rfl

namespace Application

/-- What an event does: Ctrl-C may end the run before the handler sees it. -/
def reaction (app : Application) (options : RunOptions) (scene : Scene) (event : Event) :
    UI Action :=
  if options.controlCExits && event.isKey (.control 'c') then return .exit
  else app.react scene event

end Application

namespace Loop

variable {σ α : Type} {d d' : σ} {s s' : Session} {shown : Option Frame} {full : Bool} {a : α}
  {e : Error} {f : Fault} {frame : Frame} {t : Terminal σ}

theorem run_onTerminal (step : Device σ α) (p : Progress σ) :
    (onTerminal step).run p = match step.run p.device with
      | (.ok a, device) => (.ok a, { p with device })
      | (.error e, device) => (.error (.failed e), { p with device }) := rfl

theorem run_onSession (step : UI α) (p : Progress σ) :
    (onSession step).run p = match step.run p.session with
      | (.ok a, session) => (.ok a, { p with session })
      | (.error f, session) => (.error (.crashed f), { p with session }) := rfl

theorem run_onTerminal_of_ok {step : Device σ α} (h : step.run d = (.ok a, d')) :
    (onTerminal step).run ⟨d, s, shown, full⟩ = (.ok a, ⟨d', s, shown, full⟩) := by
  rw [run_onTerminal, h]

theorem run_onTerminal_of_error {step : Device σ α} (h : step.run d = (.error e, d')) :
    (onTerminal step).run ⟨d, s, shown, full⟩ = (.error (.failed e), ⟨d', s, shown, full⟩) := by
  rw [run_onTerminal, h]

theorem run_onSession_of_ok {step : UI α} (h : step.run s = (.ok a, s')) :
    (onSession step).run ⟨d, s, shown, full⟩ = (.ok a, ⟨d, s', shown, full⟩) := by
  rw [run_onSession, h]

theorem run_onSession_of_error {step : UI α} (h : step.run s = (.error f, s')) :
    (onSession step).run ⟨d, s, shown, full⟩ = (.error (.crashed f), ⟨d, s', shown, full⟩) := by
  rw [run_onSession, h]

theorem run_get (p : Progress σ) : (get : Loop σ (Progress σ)).run p = (.ok p, p) := rfl

theorem run_present_of_ok {fully : Bool} (h : (t.draw shown frame fully).run d = (.ok (), d')) :
    (present t frame fully).run ⟨d, s, shown, full⟩ = (.ok (), ⟨d', s, some frame, full⟩) := by
  rw [present, run_bind_of_ok (run_get _), run_bind_of_ok (run_onTerminal_of_ok h)]
  rfl

theorem run_present_of_error {fully : Bool}
    (h : (t.draw shown frame fully).run d = (.error e, d')) :
    (present t frame fully).run ⟨d, s, shown, full⟩ =
      (.error (.failed e), ⟨d', s, shown, full⟩) := by
  rw [present, run_bind_of_ok (run_get _), run_bind_of_error (run_onTerminal_of_error h)]

theorem react_eq (app : Application) (options : RunOptions) (scene : Scene) (event : Event) :
    (react app options scene event : Loop σ Action) =
      onSession (app.reaction options scene event) := by
  unfold react Application.reaction
  split <;> rfl

/-! ### One round -/

/-- A round has made a scene and has shown it at the terminal's size. -/
inductive Presents (app : Application) (t : Terminal σ) :
    Progress σ → Scene → Size → Progress σ → Prop where
  | intro {d d₁ d₂ : σ} {s s₁ : Session} {shown : Option Frame} {full : Bool} {scene : Scene}
    {size : Size} (hscene : app.scene.run s = (.ok scene, s₁))
    (hsize : t.size.run d = (.ok size, d₁))
    (hdraw : (t.draw shown (scene.view.render size.columns size.rows) full).run d₁ = (.ok (), d₂)) :
    Presents app t ⟨d, s, shown, full⟩ scene size
      ⟨d₂, s₁, some (scene.view.render size.columns size.rows), full⟩

/-- What a round can come to: the action of the handler, or the end of the run. -/
inductive Round (app : Application) (options : RunOptions) (t : Terminal σ) :
    Progress σ → Except Ending Action → Progress σ → Prop where
  | noScene {d : σ} {s s₁ : Session} {shown : Option Frame} {full : Bool} {f : Fault}
    (hscene : app.scene.run s = (.error f, s₁)) :
    Round app options t ⟨d, s, shown, full⟩ (.error (.crashed f)) ⟨d, s₁, shown, full⟩
  | noSize {d d₁ : σ} {s s₁ : Session} {shown : Option Frame} {full : Bool} {scene : Scene}
    {e : Error} (hscene : app.scene.run s = (.ok scene, s₁))
    (hsize : t.size.run d = (.error e, d₁)) :
    Round app options t ⟨d, s, shown, full⟩ (.error (.failed e)) ⟨d₁, s₁, shown, full⟩
  | notShown {d d₁ d₂ : σ} {s s₁ : Session} {shown : Option Frame} {full : Bool} {scene : Scene}
    {size : Size} {e : Error} (hscene : app.scene.run s = (.ok scene, s₁))
    (hsize : t.size.run d = (.ok size, d₁))
    (hdraw : (t.draw shown (scene.view.render size.columns size.rows) full).run d₁ =
      (.error e, d₂)) :
    Round app options t ⟨d, s, shown, full⟩ (.error (.failed e)) ⟨d₂, s₁, shown, full⟩
  | noEvent {p : Progress σ} {d d₁ : σ} {s : Session} {shown : Option Frame} {full : Bool}
    {scene : Scene} {size : Size} {e : Error}
    (hshown : Presents app t p scene size ⟨d, s, shown, full⟩)
    (hread : t.readEvent.run d = (.error e, d₁)) :
    Round app options t p (.error (.failed e)) ⟨d₁, s, shown, full⟩
  | noReaction {p : Progress σ} {d d₁ : σ} {s s₁ : Session} {shown : Option Frame} {full : Bool}
    {scene : Scene} {size : Size} {event : Event} {f : Fault}
    (hshown : Presents app t p scene size ⟨d, s, shown, full⟩)
    (hread : t.readEvent.run d = (.ok event, d₁))
    (hreact : (app.reaction options scene event).run s = (.error f, s₁)) :
    Round app options t p (.error (.crashed f)) ⟨d₁, s₁, shown, event.isResize⟩
  | exits {p : Progress σ} {d d₁ d₂ : σ} {s s₁ : Session} {shown : Option Frame} {full : Bool}
    {scene : Scene} {size : Size} {event : Event}
    (hshown : Presents app t p scene size ⟨d, s, shown, full⟩)
    (hread : t.readEvent.run d = (.ok event, d₁))
    (hreact : (app.reaction options scene event).run s = (.ok .exit, s₁))
    (hclear : (t.draw shown (.empty size.columns) false).run d₁ = (.ok (), d₂)) :
    Round app options t p (.error (.exited s₁.tree))
      ⟨d₂, s₁, some (.empty size.columns), event.isResize⟩
  | notCleared {p : Progress σ} {d d₁ d₂ : σ} {s s₁ : Session} {shown : Option Frame} {full : Bool}
    {scene : Scene} {size : Size} {event : Event} {e : Error}
    (hshown : Presents app t p scene size ⟨d, s, shown, full⟩)
    (hread : t.readEvent.run d = (.ok event, d₁))
    (hreact : (app.reaction options scene event).run s = (.ok .exit, s₁))
    (hclear : (t.draw shown (.empty size.columns) false).run d₁ = (.error e, d₂)) :
    Round app options t p (.error (.failed e)) ⟨d₂, s₁, shown, event.isResize⟩
  | goesOn {p : Progress σ} {d d₁ : σ} {s s₁ : Session} {shown : Option Frame} {full : Bool}
    {scene : Scene} {size : Size} {event : Event} {action : Action}
    (hshown : Presents app t p scene size ⟨d, s, shown, full⟩)
    (hread : t.readEvent.run d = (.ok event, d₁))
    (hreact : (app.reaction options scene event).run s = (.ok action, s₁))
    (hne : action ≠ .exit) :
    Round app options t p (.ok action) ⟨d₁, s₁, shown, event.isResize⟩

variable {app : Application} {options : RunOptions} {scene : Scene} {size : Size}
  {p p' : Progress σ} {r : Except Ending Action}

/-- The part of a round after its frame is shown. -/
def await (app : Application) (options : RunOptions) (t : Terminal σ) (scene : Scene)
    (size : Size) : Loop σ Action := do
  let event ← onTerminal t.readEvent
  modify fun p => { p with full := event.isResize }
  let action ← react app options scene event
  if action = .exit then
    present t (.empty size.columns) false
    throw (.exited (← get).session.tree)
  return action

theorem round_eq (app : Application) (options : RunOptions) (t : Terminal σ) :
    round app options t = (do
      let scene ← onSession app.scene
      let size ← onTerminal t.size
      present t (scene.view.render size.columns size.rows) (← get).full
      await app options t scene size) := rfl

theorem Presents.run_round (h : Presents app t p scene size p') (options : RunOptions) :
    (round app options t).run p = (await app options t scene size).run p' := by
  cases h with
  | intro hscene hsize hdraw =>
    rw [round_eq, run_bind_of_ok (run_onSession_of_ok hscene),
      run_bind_of_ok (run_onTerminal_of_ok hsize), run_bind_of_ok (run_get _),
      run_bind_of_ok (run_present_of_ok hdraw)]

theorem run_await {event : Event} (hread : t.readEvent.run d = (.ok event, d')) :
    (await app options t scene size).run ⟨d, s, shown, full⟩ =
      (do
        let action ← onSession (app.reaction options scene event)
        if action = .exit then
          present t (.empty size.columns) false
          throw (.exited (← get).session.tree)
        return action : Loop σ Action).run ⟨d', s, shown, event.isResize⟩ := by
  rw [await, run_bind_of_ok (run_onTerminal_of_ok hread)]
  simp only [react_eq]
  rfl

/-- The loop does what the rules say. -/
theorem Round.run_eq (h : Round app options t p r p') :
    (round app options t).run p = (r, p') := by
  cases h with
  | noScene hscene => rw [round_eq, run_bind_of_error (run_onSession_of_error hscene)]
  | noSize hscene hsize =>
    rw [round_eq, run_bind_of_ok (run_onSession_of_ok hscene),
      run_bind_of_error (run_onTerminal_of_error hsize)]
  | notShown hscene hsize hdraw =>
    rw [round_eq, run_bind_of_ok (run_onSession_of_ok hscene),
      run_bind_of_ok (run_onTerminal_of_ok hsize), run_bind_of_ok (run_get _),
      run_bind_of_error (run_present_of_error hdraw)]
  | noEvent hshown hread =>
    rw [hshown.run_round, await, run_bind_of_error (run_onTerminal_of_error hread)]
  | noReaction hshown hread hreact =>
    rw [hshown.run_round, run_await hread, run_bind_of_error (run_onSession_of_error hreact)]
  | exits hshown hread hreact hclear =>
    rw [hshown.run_round, run_await hread, run_bind_of_ok (run_onSession_of_ok hreact), if_pos rfl,
      run_bind_of_ok (run_present_of_ok hclear)]
    rfl
  | notCleared hshown hread hreact hclear =>
    rw [hshown.run_round, run_await hread, run_bind_of_ok (run_onSession_of_ok hreact), if_pos rfl,
      run_bind_of_error (run_present_of_error hclear)]
  | goesOn hshown hread hreact hne =>
    rw [hshown.run_round, run_await hread, run_bind_of_ok (run_onSession_of_ok hreact),
      if_neg hne]
    rfl

/-- Every round is one of these. -/
theorem exists_round (app : Application) (options : RunOptions) (t : Terminal σ)
    (p : Progress σ) : ∃ r p', Round app options t p r p' := by
  obtain ⟨d, s, shown, full⟩ := p
  rcases hscene : app.scene.run s with ⟨f | scene, s₁⟩
  · exact ⟨_, _, .noScene hscene⟩
  rcases hsize : t.size.run d with ⟨e | size, d₁⟩
  · exact ⟨_, _, .noSize hscene hsize⟩
  rcases hdraw : (t.draw shown (scene.view.render size.columns size.rows) full).run d₁ with
    ⟨e | _, d₂⟩
  · exact ⟨_, _, .notShown hscene hsize hdraw⟩
  have hshown := Presents.intro hscene hsize hdraw
  rcases hread : t.readEvent.run d₂ with ⟨e | event, d₃⟩
  · exact ⟨_, _, .noEvent hshown hread⟩
  rcases hreact : (app.reaction options scene event).run s₁ with ⟨f | action, s₂⟩
  · exact ⟨_, _, .noReaction hshown hread hreact⟩
  by_cases hexit : action = .exit
  · subst hexit
    rcases hclear : (t.draw (some (scene.view.render size.columns size.rows))
      (.empty size.columns) false).run d₃ with ⟨e | _, d₄⟩
    · exact ⟨_, _, .notCleared hshown hread hreact hclear⟩
    · exact ⟨_, _, .exits hshown hread hreact hclear⟩
  · exact ⟨_, _, .goesOn hshown hread hreact hexit⟩

/-! ### Rounds one after the other -/

variable {n : Nat} {ending : Ending} {action : Action} {actions : List Action} {p₁ : Progress σ}

theorem run_rounds_of_error (h : Round app options t p (.error ending) p₁) :
    (rounds app options t (n + 1)).run p = (.error ending, p₁) := by
  rw [rounds, run_bind_of_error h.run_eq]

theorem run_rounds_of_ok (h : Round app options t p (.ok action) p₁) :
    (rounds app options t (n + 1)).run p =
      ((rounds app options t n).run p₁).map (Except.map (action :: ·)) id := by
  rw [rounds, run_bind_of_ok h.run_eq]
  rcases hrest : (rounds app options t n).run p₁ with ⟨ending | actions, p₂⟩
  · rw [run_bind_of_error hrest]
    rfl
  · rw [run_bind_of_ok hrest]
    rfl

/-- Rounds that went through are a first one and those after it. -/
theorem exists_of_run_rounds_succ_eq_ok
    (h : (rounds app options t (n + 1)).run p = (.ok actions, p')) :
    ∃ action p₁ rest, Round app options t p (.ok action) p₁ ∧
      (rounds app options t n).run p₁ = (.ok rest, p') ∧ actions = action :: rest := by
  obtain ⟨r, p₁, hround⟩ := exists_round app options t p
  cases r with
  | error ending =>
    rw [run_rounds_of_error hround] at h
    cases h
  | ok action =>
    rw [run_rounds_of_ok hround] at h
    rcases hrest : (rounds app options t n).run p₁ with ⟨ending | rest, p₂⟩ <;> rw [hrest] at h <;>
      cases h
    exact ⟨action, p₁, rest, hround, hrest, rfl⟩

/-- Rounds of which one ended the run are a first one that did, or a first one that went through and
others of which one did. -/
theorem of_run_rounds_succ_eq_error
    (h : (rounds app options t (n + 1)).run p = (.error ending, p')) :
    Round app options t p (.error ending) p' ∨
      ∃ action p₁, Round app options t p (.ok action) p₁ ∧
        (rounds app options t n).run p₁ = (.error ending, p') := by
  obtain ⟨r, p₁, hround⟩ := exists_round app options t p
  cases r with
  | error e =>
    rw [run_rounds_of_error hround] at h
    cases h
    exact .inl hround
  | ok action =>
    rw [run_rounds_of_ok hround] at h
    rcases hrest : (rounds app options t n).run p₁ with ⟨e | rest, p₂⟩ <;> rw [hrest] at h <;>
      cases h
    exact .inr ⟨action, p₁, hround, hrest⟩

/-- Rounds that went through come before the rounds that follow. -/
theorem run_rounds_add {m : Nat} (h : (rounds app options t m).run p = (.ok actions, p₁))
    (n : Nat) :
    (rounds app options t (m + n)).run p =
      ((rounds app options t n).run p₁).map (Except.map (actions ++ ·)) id := by
  induction m generalizing p actions with
  | zero =>
    cases h
    rw [Nat.zero_add]
    rcases (rounds app options t n).run p₁ with ⟨_ | _, _⟩ <;> rfl
  | succ m ih =>
    obtain ⟨action, p₂, rest, hround, hrest, rfl⟩ := exists_of_run_rounds_succ_eq_ok h
    rw [Nat.add_right_comm, run_rounds_of_ok hround, ih hrest]
    rcases (rounds app options t n).run p₁ with ⟨_ | _, _⟩ <;> rfl

end Loop

namespace Application

open Loop

variable {σ : Type} {app : Application} {options : RunOptions} {t : Terminal σ} {d d' : σ} {n : Nat}
  {p : Progress σ}

/-! ### A whole run -/

/-- The terminal refuses to be taken over. -/
theorem runOn_of_setup_error {e : Error} (hsetup : t.setup.run d = (.error e, d')) :
    app.runOn options t n d = ⟨some (.failed e), d', {}⟩ := by
  rw [runOn, hsetup]

/-- The rounds are used up. -/
theorem runOn_of_rounds_ok {actions : List Action} (hsetup : t.setup.run d = (.ok (), d'))
    (hrounds : (rounds app options t n).run { device := d' } = (.ok actions, p)) :
    app.runOn options t n d = ⟨none, p.device, p.session⟩ := by
  rw [runOn, hsetup]
  simp only [hrounds]

/-- A round ends the run. -/
theorem runOn_of_rounds_error {ending : Ending} (hsetup : t.setup.run d = (.ok (), d'))
    (hrounds : (rounds app options t n).run { device := d' } = (.error ending, p)) :
    app.runOn options t n d = ⟨some ending, (t.restore.run p.device).2, p.session⟩ := by
  rw [runOn, hsetup]
  simp only [hrounds]

end Application

end TerminalUI
