import TerminalUI.Application.Basic
import TerminalUI.Terminal.Basic

/-!
# Running an application on a terminal

A run takes the terminal over and goes through rounds. Each round makes a scene, shows it at the
current size, waits for an event and gives it to the handler. The run ends when the handler says so,
when the terminal fails, or with a fault; unless the terminal could not be taken over, it is given
back then, whatever the reason. Nothing bounds the events that a terminal may have, so a run is told
how many rounds it may take.
-/

namespace TerminalUI

/-- Options of a run. -/
structure RunOptions where
  /-- Does Ctrl-C end the run before the application sees it? -/
  controlCExits : Bool := false
  deriving DecidableEq, Repr

/-- How a run ended. -/
inductive Ending where
  /-- The application ended, with this state. -/
  | exited (tree : Tree)
  /-- The terminal failed. -/
  | failed (e : Error)
  /-- The application faulted. -/
  | crashed (f : Fault)

/-- A run in progress, on a terminal with states `σ`. -/
structure Progress (σ : Type) where
  /-- The state of the terminal. -/
  device : σ
  session : Session := {}
  /-- The frame shown last. -/
  shown : Option Frame := none
  /-- Has the next frame to be drawn in full? -/
  full : Bool := true

/-- What came of a run, on a terminal with states `σ`. -/
structure Report (σ : Type) where
  /-- How the run ended, unless its rounds were used up. -/
  ending : Option Ending
  device : σ
  session : Session := {}

/-- A part of a run, which may end it. -/
abbrev Loop (σ : Type) := ExceptT Ending (StateM (Progress σ))

namespace Loop

variable {σ α : Type}

/-- A step of the terminal. -/
def onTerminal (step : Device σ α) : Loop σ α := fun p =>
  match step.run p.device with
  | (.ok a, device) => (.ok a, { p with device })
  | (.error e, device) => (.error (.failed e), { p with device })

/-- A step of the application. -/
def onSession (step : UI α) : Loop σ α := fun p =>
  match step.run p.session with
  | (.ok a, session) => (.ok a, { p with session })
  | (.error f, session) => (.error (.crashed f), { p with session })

/-- Shows a frame. -/
def present (t : Terminal σ) (frame : Frame) (full : Bool) : Loop σ Unit := do
  onTerminal (t.draw (← get).shown frame full)
  modify fun p => { p with shown := some frame }

/-- Finds out what an event does. -/
def react (app : Application) (options : RunOptions) (scene : Scene) (event : Event) :
    Loop σ Action :=
  if options.controlCExits && event.isKey (.control 'c') then return .exit
  else onSession (app.react scene event)

/-- One round of a run, which gives what the handler reported. At the end of the run, what was shown
is cleared. -/
def round (app : Application) (options : RunOptions) (t : Terminal σ) : Loop σ Action := do
  let scene ← onSession app.scene
  let size ← onTerminal t.size
  present t (scene.view.render size.columns size.rows) (← get).full
  let event ← onTerminal t.readEvent
  modify fun p => { p with full := event.isResize }
  let action ← react app options scene event
  if action = .exit then
    present t (.empty size.columns) false
    throw (.exited (← get).session.tree)
  return action

/-- So many rounds of a run, with what the handler reported in each. -/
def rounds (app : Application) (options : RunOptions) (t : Terminal σ) :
    Nat → Loop σ (List Action)
  | 0 => return []
  | n + 1 => do
    let action ← round app options t
    let actions ← rounds app options t n
    return action :: actions

end Loop

namespace Application

variable {σ : Type}

/-- Runs an application on a terminal for so many rounds at most. -/
def runOn (app : Application) (options : RunOptions) (t : Terminal σ) (rounds : Nat)
    (device : σ) : Report σ :=
  match t.setup.run device with
  | (.error e, device) => { ending := some (.failed e), device }
  | (.ok _, device) =>
    match (Loop.rounds app options t rounds).run { device := device } with
    | (.ok _, p) => { ending := none, device := p.device, session := p.session }
    | (.error ending, p) =>
      { ending := some ending, device := (t.restore.run p.device).2, session := p.session }

end Application

end TerminalUI
