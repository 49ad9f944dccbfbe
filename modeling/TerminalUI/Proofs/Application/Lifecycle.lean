import TerminalUI.Proofs.Application.Rounds

/-!
# The terminal during a run

Which calls a run makes of its terminal, whatever the application and whenever a call fails. The
calls are observed by a terminal that records them (`Terminal.recorded`), and the run does the same
on it as on the terminal itself.

* `Turn.allCalls` : the calls of rounds that go through;
* `Application.LastCalls` : the calls of the round in which a run ends, one rule for each way out;
* `Application.Lifecycle` : the calls of a whole run, between taking the terminal over and giving it
  back;
* `Application.runOn_lifecycle` : the calls of every run are those of its lifecycle.
-/

namespace TerminalUI

/-- A call of an operation of a terminal, with its outcome. -/
inductive Call where
  | setup (outcome : Except Error Unit)
  | restore (outcome : Except Error Unit)
  | size (outcome : Except Error Size)
  | draw (previous : Option Frame) (frame : Frame) (full : Bool) (outcome : Except Error Unit)
  | readEvent (outcome : Except Error Event)

namespace Call

/-- Does the call take the terminal over? -/
def isSetup : Call → Bool
  | .setup _ => true
  | _ => false

/-- Does the call give the terminal back? -/
def isRestore : Call → Bool
  | .restore _ => true
  | _ => false

/-- Is it a call of a round? -/
def isInner (c : Call) : Bool :=
  !c.isSetup && !c.isRestore

theorem isSetup_of_isInner (c : Call) (h : c.isInner = true) : c.isSetup = false := by
  cases c <;> first | rfl | cases h

theorem isRestore_of_isInner (c : Call) (h : c.isInner = true) : c.isRestore = false := by
  cases c <;> first | rfl | cases h

end Call

namespace Terminal

variable {σ α : Type}

/-- A step that is kept as a call with its outcome. -/
def record (call : Except Error α → Call) (step : Device σ α) : Device (σ × List Call) α :=
  fun (device, calls) =>
    match step.run device with
    | (outcome, device) => (outcome, (device, calls ++ [call outcome]))

/-- The terminal that keeps a list of the calls made of it. -/
def recorded (t : Terminal σ) : Terminal (σ × List Call) where
  setup := record .setup t.setup
  restore := record .restore t.restore
  size := record .size t.size
  draw previous frame full := record (.draw previous frame full) (t.draw previous frame full)
  readEvent := record .readEvent t.readEvent

theorem run_record_eq_iff {call : Except Error α → Call} {step : Device σ α}
    {d d' : σ × List Call} {outcome : Except Error α} :
    (record call step).run d = (outcome, d') ↔
      step.run d.1 = (outcome, d'.1) ∧ d'.2 = d.2 ++ [call outcome] := by
  change ((step.run d.1).1, (step.run d.1).2, d.2 ++ [call (step.run d.1).1]) = _ ↔ _
  rcases step.run d.1 with ⟨o, device⟩
  rw [Prod.ext_iff, Prod.ext_iff, Prod.ext_iff]
  constructor
  · rintro ⟨rfl, hdevice, hcalls⟩
    exact ⟨⟨rfl, hdevice⟩, hcalls.symm⟩
  · rintro ⟨⟨rfl, hdevice⟩, hcalls⟩
    exact ⟨rfl, hdevice, hcalls.symm⟩

end Terminal

/-! ### The calls of a run -/

/-- A round that went through, as the terminal saw it. -/
structure Turn where
  size : Size
  frame : Frame
  event : Event

namespace Turn

/-- The calls of a round, when `previous` was shown before. -/
def calls (previous : Option Frame) (full : Bool) (r : Turn) : List Call :=
  [.size (.ok r.size), .draw previous r.frame full (.ok ()), .readEvent (.ok r.event)]

/-- The calls of rounds one after the other. Each frame comes with the one before it, and is drawn
in full after an event that changed the size. -/
def allCalls : Option Frame → Bool → List Turn → List Call
  | _, _, [] => []
  | previous, full, r :: rest =>
    r.calls previous full ++ allCalls (some r.frame) r.event.isResize rest

theorem isInner_of_mem_allCalls {previous : Option Frame} {full : Bool} {turns : List Turn}
    {c : Call} (h : c ∈ allCalls previous full turns) : c.isInner = true := by
  induction turns generalizing previous full with
  | nil => cases h
  | cons turn rest ih =>
    rcases List.mem_append.mp h with h | h
    · simp only [calls, List.mem_cons, List.not_mem_nil, or_false] at h
      rcases h with rfl | rfl | rfl <;> rfl
    · exact ih h

/-- The frame shown last, after rounds. -/
def lastFrame (previous : Option Frame) (turns : List Turn) : Option Frame :=
  turns.foldl (fun _ r => some r.frame) previous

/-- Has the next frame to be drawn in full, after rounds? -/
def nextFull (full : Bool) (turns : List Turn) : Bool :=
  turns.foldl (fun _ r => r.event.isResize) full

end Turn

namespace Application

/-- From one session, an application goes through rounds to another one: in each, its frame is what
its scene shows at the size, and its handler does not end the run. -/
inductive Played (app : Application) (options : RunOptions) :
    Session → List Turn → Session → Prop where
  | nil (s : Session) : Played app options s [] s
  | cons {s s₁ s₂ s₃ : Session} {scene : Scene} {size : Size} {event : Event} {action : Action}
    {rest : List Turn} (hscene : app.scene.run s = (.ok scene, s₁))
    (hreact : (app.reaction options scene event).run s₁ = (.ok action, s₂))
    (hne : action ≠ .exit) (hrest : Played app options s₂ rest s₃) :
    Played app options s (⟨size, scene.view.render size.columns size.rows, event⟩ :: rest) s₃

theorem Played.append {app : Application} {options : RunOptions} {s s₁ s₂ : Session}
    {turns rest : List Turn} (h : app.Played options s turns s₁)
    (hrest : app.Played options s₁ rest s₂) : app.Played options s (turns ++ rest) s₂ := by
  induction h with
  | nil => exact hrest
  | cons hscene hreact hne _ ih => exact .cons hscene hreact hne (ih hrest)

/-- The calls of the round in which a run ends, and how it ends: the application faults while it
makes the scene or deals with the event, or a call fails, or the handler ends the run and what was
shown is replaced by an empty frame. -/
inductive LastCalls (app : Application) (options : RunOptions) (shown : Option Frame)
    (full : Bool) (s : Session) : List Call → Ending → Session → Prop where
  | noScene {f : Fault} {s₁ : Session} (hscene : app.scene.run s = (.error f, s₁)) :
    LastCalls app options shown full s [] (.crashed f) s₁
  | noSize {scene : Scene} {s₁ : Session} (hscene : app.scene.run s = (.ok scene, s₁)) (e : Error) :
    LastCalls app options shown full s [.size (.error e)] (.failed e) s₁
  | notShown {scene : Scene} {s₁ : Session} (hscene : app.scene.run s = (.ok scene, s₁))
    (size : Size) (e : Error) :
    LastCalls app options shown full s
      [.size (.ok size),
        .draw shown (scene.view.render size.columns size.rows) full (.error e)] (.failed e) s₁
  | noEvent {scene : Scene} {s₁ : Session} (hscene : app.scene.run s = (.ok scene, s₁))
    (size : Size) (e : Error) :
    LastCalls app options shown full s
      [.size (.ok size), .draw shown (scene.view.render size.columns size.rows) full (.ok ()),
        .readEvent (.error e)] (.failed e) s₁
  | noReaction {scene : Scene} {s₁ s₂ : Session} {event : Event} {f : Fault}
    (hscene : app.scene.run s = (.ok scene, s₁)) (size : Size)
    (hreact : (app.reaction options scene event).run s₁ = (.error f, s₂)) :
    LastCalls app options shown full s
      [.size (.ok size), .draw shown (scene.view.render size.columns size.rows) full (.ok ()),
        .readEvent (.ok event)] (.crashed f) s₂
  | exits {scene : Scene} {s₁ s₂ : Session} {event : Event}
    (hscene : app.scene.run s = (.ok scene, s₁)) (size : Size)
    (hreact : (app.reaction options scene event).run s₁ = (.ok .exit, s₂)) :
    LastCalls app options shown full s
      [.size (.ok size), .draw shown (scene.view.render size.columns size.rows) full (.ok ()),
        .readEvent (.ok event), .draw (some (scene.view.render size.columns size.rows))
          (.empty size.columns) false (.ok ())] (.exited s₂.tree) s₂
  | notCleared {scene : Scene} {s₁ s₂ : Session} {event : Event}
    (hscene : app.scene.run s = (.ok scene, s₁)) (size : Size)
    (hreact : (app.reaction options scene event).run s₁ = (.ok .exit, s₂)) (e : Error) :
    LastCalls app options shown full s
      [.size (.ok size), .draw shown (scene.view.render size.columns size.rows) full (.ok ()),
        .readEvent (.ok event), .draw (some (scene.view.render size.columns size.rows))
          (.empty size.columns) false (.error e)] (.failed e) s₂

theorem LastCalls.isInner_of_mem {app : Application} {options : RunOptions} {shown : Option Frame}
    {full : Bool} {s s' : Session} {last : List Call} {ending : Ending} {c : Call}
    (h : app.LastCalls options shown full s last ending s') (hc : c ∈ last) : c.isInner = true := by
  cases h <;>
    simp only [List.mem_cons, List.not_mem_nil, or_false] at hc <;>
    rcases hc with rfl | rfl | rfl | rfl <;> rfl

end Application

namespace Loop

open Terminal

variable {σ : Type} {app : Application} {options : RunOptions} {t : Terminal σ} {scene : Scene}
  {size : Size} {p p' : Progress (σ × List Call)} {r : Except Ending Action} {action : Action}
  {ending : Ending}

/-- The run without the list of calls. -/
def unrecorded (p : Progress (σ × List Call)) : Progress σ :=
  ⟨p.device.1, p.session, p.shown, p.full⟩

theorem Presents.unrecorded (h : Presents app t.recorded p scene size p') :
    Presents app t (unrecorded p) scene size (unrecorded p') := by
  cases h with
  | intro hscene hsize hdraw =>
    exact .intro hscene (run_record_eq_iff.mp hsize).1 (run_record_eq_iff.mp hdraw).1

/-- Keeping the calls changes nothing about a round. -/
theorem Round.unrecorded (h : Round app options t.recorded p r p') :
    Round app options t (unrecorded p) r (unrecorded p') := by
  cases h with
  | noScene hscene => exact .noScene hscene
  | noSize hscene hsize => exact .noSize hscene (run_record_eq_iff.mp hsize).1
  | notShown hscene hsize hdraw =>
    exact .notShown hscene (run_record_eq_iff.mp hsize).1 (run_record_eq_iff.mp hdraw).1
  | noEvent hshown hread => exact .noEvent hshown.unrecorded (run_record_eq_iff.mp hread).1
  | noReaction hshown hread hreact =>
    exact .noReaction hshown.unrecorded (run_record_eq_iff.mp hread).1 hreact
  | exits hshown hread hreact hclear =>
    exact .exits hshown.unrecorded (run_record_eq_iff.mp hread).1 hreact
      (run_record_eq_iff.mp hclear).1
  | notCleared hshown hread hreact hclear =>
    exact .notCleared hshown.unrecorded (run_record_eq_iff.mp hread).1 hreact
      (run_record_eq_iff.mp hclear).1
  | goesOn hshown hread hreact hne =>
    exact .goesOn hshown.unrecorded (run_record_eq_iff.mp hread).1 hreact hne

theorem Presents.calls_eq (h : Presents app t.recorded p scene size p') :
    app.scene.run p.session = (.ok scene, p'.session) ∧
      p'.shown = some (scene.view.render size.columns size.rows) ∧
      p'.device.2 = p.device.2 ++ [.size (.ok size),
        .draw p.shown (scene.view.render size.columns size.rows) p.full (.ok ())] := by
  cases h with
  | intro hscene hsize hdraw =>
    refine ⟨hscene, rfl, ?_⟩
    rw [(run_record_eq_iff.mp hdraw).2, (run_record_eq_iff.mp hsize).2, List.append_assoc]
    rfl

/-- The calls of a round that goes through. -/
theorem Round.calls_of_ok (h : Round app options t.recorded p (.ok action) p') :
    ∃ turn : Turn, p'.device.2 = p.device.2 ++ turn.calls p.shown p.full ∧
      p'.shown = some turn.frame ∧ p'.full = turn.event.isResize ∧
      app.Played options p.session [turn] p'.session := by
  cases h with
  | @goesOn _ _ _ _ _ _ _ scene size event _ hshown hread hreact hne =>
    obtain ⟨hscene, hframe, hcalls⟩ := hshown.calls_eq
    refine ⟨⟨size, scene.view.render size.columns size.rows, event⟩, ?_, hframe, rfl,
      .cons hscene hreact hne (.nil _)⟩
    rw [(run_record_eq_iff.mp hread).2, hcalls, List.append_assoc]
    rfl

/-- The calls of a round that ends the run. -/
theorem Round.calls_of_error (h : Round app options t.recorded p (.error ending) p') :
    ∃ calls, p'.device.2 = p.device.2 ++ calls ∧
      app.LastCalls options p.shown p.full p.session calls ending p'.session := by
  cases h with
  | noScene hscene => exact ⟨[], (List.append_nil _).symm, .noScene hscene⟩
  | noSize hscene hsize => exact ⟨_, (run_record_eq_iff.mp hsize).2, .noSize hscene _⟩
  | @notShown _ _ _ _ _ _ _ _ size e hscene hsize hdraw =>
    refine ⟨_, ?_, .notShown hscene size e⟩
    rw [(run_record_eq_iff.mp hdraw).2, (run_record_eq_iff.mp hsize).2, List.append_assoc]
    rfl
  | @noEvent _ _ _ _ _ _ _ size e hshown hread =>
    obtain ⟨hscene, -, hcalls⟩ := hshown.calls_eq
    refine ⟨_, ?_, .noEvent hscene size e⟩
    rw [(run_record_eq_iff.mp hread).2, hcalls, List.append_assoc]
    rfl
  | @noReaction _ _ _ _ _ _ _ _ size _ _ hshown hread hreact =>
    obtain ⟨hscene, -, hcalls⟩ := hshown.calls_eq
    refine ⟨_, ?_, .noReaction hscene size hreact⟩
    rw [(run_record_eq_iff.mp hread).2, hcalls, List.append_assoc]
    rfl
  | @exits _ _ _ _ _ _ _ _ _ size _ hshown hread hreact hclear =>
    obtain ⟨hscene, rfl, hcalls⟩ := hshown.calls_eq
    refine ⟨_, ?_, .exits hscene size hreact⟩
    rw [(run_record_eq_iff.mp hclear).2, (run_record_eq_iff.mp hread).2, hcalls,
      List.append_assoc, List.append_assoc]
    rfl
  | @notCleared _ _ _ _ _ _ _ _ _ size _ e hshown hread hreact hclear =>
    obtain ⟨hscene, rfl, hcalls⟩ := hshown.calls_eq
    refine ⟨_, ?_, .notCleared hscene size hreact e⟩
    rw [(run_record_eq_iff.mp hclear).2, (run_record_eq_iff.mp hread).2, hcalls,
      List.append_assoc, List.append_assoc]
    rfl

/-! ### Rounds -/

/-- Keeping the calls changes nothing about a run. -/
theorem run_rounds_unrecorded (app : Application) (options : RunOptions) (t : Terminal σ) (n : Nat)
    (p : Progress (σ × List Call)) :
    (rounds app options t n).run (unrecorded p) =
      ((rounds app options t.recorded n).run p).map id unrecorded := by
  induction n generalizing p with
  | zero => rfl
  | succ n ih =>
    obtain ⟨r, p₁, hround⟩ := exists_round app options t.recorded p
    cases r with
    | error ending =>
      rw [run_rounds_of_error hround, run_rounds_of_error hround.unrecorded]
      rfl
    | ok action =>
      rw [run_rounds_of_ok hround, run_rounds_of_ok hround.unrecorded, ih p₁]
      rfl

/-- The calls of rounds that all go through. -/
theorem calls_of_run_rounds_ok {n : Nat} {actions : List Action}
    (h : (rounds app options t.recorded n).run p = (.ok actions, p')) :
    ∃ turns : List Turn, turns.length = n ∧ app.Played options p.session turns p'.session ∧
      p'.device.2 = p.device.2 ++ Turn.allCalls p.shown p.full turns := by
  induction n generalizing p actions with
  | zero =>
    cases h
    exact ⟨[], rfl, .nil _, (List.append_nil _).symm⟩
  | succ n ih =>
    obtain ⟨action, p₁, rest, hround, hrest, rfl⟩ := exists_of_run_rounds_succ_eq_ok h
    obtain ⟨turn, hcalls, hshown, hfull, hplayed⟩ := hround.calls_of_ok
    obtain ⟨turns, hlength, hplays, hmore⟩ := ih hrest
    refine ⟨turn :: turns, by rw [List.length_cons, hlength], hplayed.append hplays, ?_⟩
    rw [hmore, hcalls, hshown, hfull, List.append_assoc]
    rfl

/-- The calls of rounds of which the last one ends the run. -/
theorem calls_of_run_rounds_error {n : Nat}
    (h : (rounds app options t.recorded n).run p = (.error ending, p')) :
    ∃ (turns : List Turn) (s : Session) (last : List Call), turns.length < n ∧
      app.Played options p.session turns s ∧
      app.LastCalls options (Turn.lastFrame p.shown turns) (Turn.nextFull p.full turns) s last
        ending p'.session ∧
      p'.device.2 = p.device.2 ++ (Turn.allCalls p.shown p.full turns ++ last) := by
  induction n generalizing p with
  | zero => cases h
  | succ n ih =>
    obtain hround | ⟨action, p₁, hround, hrest⟩ := of_run_rounds_succ_eq_error h
    · obtain ⟨last, hcalls, hlast⟩ := hround.calls_of_error
      exact ⟨[], p.session, last, Nat.succ_pos n, .nil _, hlast, hcalls⟩
    · obtain ⟨turn, hcalls, hshown, hfull, hplayed⟩ := hround.calls_of_ok
      obtain ⟨turns, s, last, hlength, hplays, hlast, hmore⟩ := ih hrest
      rw [hshown, hfull] at hlast
      refine ⟨turn :: turns, s, last, Nat.succ_lt_succ hlength, hplayed.append hplays, hlast, ?_⟩
      rw [hmore, hcalls, hshown, hfull, List.append_assoc]
      rfl

end Loop

/-! ### A whole run -/

namespace Application

open Loop Terminal

/-- The calls of a run of at most `n` rounds, how it ended unless its rounds were used up, and the
session it left. -/
inductive Lifecycle (app : Application) (options : RunOptions) (n : Nat) :
    List Call → Option Ending → Session → Prop where
  | refused (e : Error) :
    Lifecycle app options n [.setup (.error e)] (some (.failed e)) {}
  | unfinished {turns : List Turn} {s : Session} (hlength : turns.length = n)
    (hplayed : app.Played options {} turns s) :
    Lifecycle app options n (.setup (.ok ()) :: Turn.allCalls none true turns) none s
  | finished {turns : List Turn} {s s' : Session} {last : List Call} {ending : Ending}
    (hlength : turns.length < n) (hplayed : app.Played options {} turns s)
    (hlast : app.LastCalls options (Turn.lastFrame none turns) (Turn.nextFull true turns) s last
      ending s') (outcome : Except Error Unit) :
    Lifecycle app options n
      (.setup (.ok ()) :: (Turn.allCalls none true turns ++ last ++ [.restore outcome]))
      (some ending) s'

variable {app : Application} {options : RunOptions} {n : Nat} {calls : List Call}
  {ending : Option Ending} {s : Session}

theorem countP_eq_zero_of_isInner {P : Call → Bool} (hP : ∀ c, c.isInner = true → P c = false)
    (h : ∀ c ∈ calls, c.isInner = true) : calls.countP P = 0 := by
  rw [List.countP_eq_zero]
  intro c hc
  rw [hP c (h c hc)]
  exact Bool.false_ne_true

theorem LastCalls.isInner_of_mem_append {turns : List Turn} {s₀ s₁ : Session} {last : List Call}
    {ending : Ending} {c : Call}
    (h : app.LastCalls options (Turn.lastFrame none turns) (Turn.nextFull true turns) s₀ last
      ending s₁) (hc : c ∈ Turn.allCalls none true turns ++ last) : c.isInner = true :=
  (List.mem_append.mp hc).elim Turn.isInner_of_mem_allCalls h.isInner_of_mem

/-- A run takes the terminal over exactly once. -/
theorem Lifecycle.countP_isSetup (h : app.Lifecycle options n calls ending s) :
    calls.countP Call.isSetup = 1 := by
  cases h with
  | refused e => rfl
  | unfinished =>
    rw [List.countP_cons, countP_eq_zero_of_isInner Call.isSetup_of_isInner
      fun _ => Turn.isInner_of_mem_allCalls]
    rfl
  | finished _ _ hlast outcome =>
    rw [List.countP_cons, List.countP_append,
      countP_eq_zero_of_isInner Call.isSetup_of_isInner fun _ => hlast.isInner_of_mem_append]
    rfl

/-- A run that had taken the terminal over and has ended gave it back exactly once. -/
theorem Lifecycle.countP_isRestore
    (h : app.Lifecycle options n (.setup (.ok ()) :: calls) ending s) (hended : ending.isSome) :
    (Call.setup (.ok ()) :: calls).countP Call.isRestore = 1 := by
  cases h with
  | unfinished => cases hended
  | finished _ _ hlast outcome =>
    rw [List.countP_cons, List.countP_append,
      countP_eq_zero_of_isInner Call.isRestore_of_isInner fun _ => hlast.isInner_of_mem_append]
    rfl

/-- A run that had taken the terminal over and has ended gave it back last. -/
theorem Lifecycle.exists_getLast?_eq
    (h : app.Lifecycle options n (.setup (.ok ()) :: calls) ending s) (hended : ending.isSome) :
    ∃ outcome, (Call.setup (.ok ()) :: calls).getLast? = some (.restore outcome) := by
  cases h with
  | unfinished => cases hended
  | finished _ _ _ outcome =>
    exact ⟨outcome, by rw [← List.cons_append, List.getLast?_concat]⟩

/-- **The terminal over a run**: whatever the application, the options and the terminal, and
whenever its calls fail, the calls of a run are those of its lifecycle. Setup comes first and only
once. If it fails, nothing else is called. Otherwise rounds follow, each of which asks for the size,
draws and reads an event, up to the round in which the run ends, and when it has ended, restore
comes last and only once. The first of these calls that fails is the end, whatever restore comes to,
and a handler that ends the run ends it with the state it left. -/
theorem runOn_lifecycle (app : Application) (options : RunOptions) {σ : Type} (t : Terminal σ)
    (n : Nat) (device : σ) :
    ∃ calls : List Call,
      app.runOn options t.recorded n (device, []) =
        ⟨(app.runOn options t n device).ending, ((app.runOn options t n device).device, calls),
          (app.runOn options t n device).session⟩ ∧
      app.Lifecycle options n calls (app.runOn options t n device).ending
        (app.runOn options t n device).session ∧
      calls.head? = some (.setup (t.setup.run device).1) ∧
      calls.countP Call.isSetup = 1 ∧
      ((t.setup.run device).1 = .ok () → (app.runOn options t n device).ending.isSome →
        calls.countP Call.isRestore = 1 ∧ ∃ outcome, calls.getLast? = some (.restore outcome)) := by
  rcases hsetup : t.setup.run device with ⟨e | ⟨⟩, d⟩
  · have hrecorded : t.recorded.setup.run (device, []) = (.error e, (d, [.setup (.error e)])) :=
      run_record_eq_iff.mpr ⟨hsetup, rfl⟩
    rw [runOn_of_setup_error hsetup, runOn_of_setup_error hrecorded]
    exact ⟨_, rfl, .refused e, rfl, rfl, fun h => nomatch h⟩
  have hrecorded : t.recorded.setup.run (device, []) = (.ok (), (d, [.setup (.ok ())])) :=
    run_record_eq_iff.mpr ⟨hsetup, rfl⟩
  -- what is left is one statement about the calls after setup
  suffices hlife : ∃ calls : List Call,
      app.runOn options t.recorded n (device, []) =
        ⟨(app.runOn options t n device).ending,
          ((app.runOn options t n device).device, .setup (.ok ()) :: calls),
          (app.runOn options t n device).session⟩ ∧
      app.Lifecycle options n (.setup (.ok ()) :: calls) (app.runOn options t n device).ending
        (app.runOn options t n device).session by
    obtain ⟨calls, hreport, hlife⟩ := hlife
    exact ⟨_, hreport, hlife, rfl, hlife.countP_isSetup, fun _ hended =>
      ⟨hlife.countP_isRestore hended, hlife.exists_getLast?_eq hended⟩⟩
  have hrounds := run_rounds_unrecorded app options t n { device := (d, [.setup (.ok ())]) }
  rcases h : (rounds app options t.recorded n).run { device := (d, [.setup (.ok ())]) } with
    ⟨e | actions, p⟩ <;> rw [h] at hrounds
  · obtain ⟨turns, s, last, hlength, hplayed, hlast, hcalls⟩ := calls_of_run_rounds_error h
    rcases hrestore : t.restore.run p.device.1 with ⟨outcome, d'⟩
    have hgiven : t.recorded.restore.run p.device =
        (outcome, (d', p.device.2 ++ [.restore outcome])) :=
      run_record_eq_iff.mpr ⟨hrestore, rfl⟩
    rw [runOn_of_rounds_error hsetup hrounds, runOn_of_rounds_error hrecorded h, hgiven, hcalls]
    refine ⟨_, ?_, .finished hlength hplayed hlast outcome⟩
    simp only [unrecorded, hrestore]
    rfl
  · obtain ⟨turns, hlength, hplayed, hcalls⟩ := calls_of_run_rounds_ok h
    rw [runOn_of_rounds_ok hsetup hrounds, runOn_of_rounds_ok hrecorded h]
    refine ⟨_, ?_, .unfinished hlength hplayed⟩
    exact congrArg (Report.mk none · p.session) (Prod.ext rfl hcalls)

end Application

end TerminalUI
