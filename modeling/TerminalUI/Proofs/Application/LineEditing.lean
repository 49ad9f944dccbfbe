import TerminalUI.Application.LineEditor
import TerminalUI.Proofs.Application.Agreement
import TerminalUI.Proofs.CodeArea.Draft
import TerminalUI.Proofs.Program.Seeding

/-!
# Reading a line of code

The line editor on a terminal that plays a list of events, followed from the first round to the last.
Between two rounds all that counts is that the state tree is one of a code area which a draft tells
of, once the prompt is in it (`LineEditor.Ready`).

* `LineEditor.Ready.round_next`, `LineEditor.Ready.round_submitted`,
  `LineEditor.Ready.round_exhausted` : the three ways in which a round can go;
* `LineEditor.Ready.run_rounds` : the rounds for events none of which submits;
* `LineEditor.read_script` : what is read in a whole run, for every prompt, size and list of events.
-/

namespace TerminalUI

namespace LineEditor

open CodeArea Loop

variable {prompt : StyledText} {d : Draft} {s : CodeArea.State} {t m : Tree} {event : Event}
  {p : Progress Script} {before rest : List Event}

/-- With the prompt put where there is none, the tree has the entries of a code area, in a state that
the draft tells of. -/
def Ready (prompt : StyledText) (t : Tree) (d : Draft) : Prop :=
  ∃ s, Configured (t.withDefault promptName (.styled prompt)) s ∧ d.Matches s

theorem ready_empty (prompt : StyledText) : Ready prompt .empty {} := by
  refine ⟨{ prompt := prompt }, configured_prompt (fun _ _ => rfl) prompt, ?_⟩
  constructor <;> rfl

theorem ready_of_holds (h : Holds m s) (hd : d.Matches s) : Ready prompt m d := by
  refine ⟨s, ?_, hd⟩
  rw [Tree.withDefault_of_isSome (by simp [h.prompt])]
  exact h.configured

theorem content_of_holds (h : Holds m s) (hd : d.Matches s) : content m = .ok d.text := by
  unfold content
  rw [h.buffer]
  simp only [hd.buffer_eq, Draft.content_buffer]

theorem start_styledField (prompt : StyledText) :
    (Blueprint.styledField prompt).start =
      codeArea.withStates [(.ofString promptName, .styled prompt)] := by
  have hcomponent (depth : Nat) : Blueprint.component (depth + 1 + 1) (.styledField prompt) =
      codeArea.withStates [(.ofString promptName, .styled prompt)] := rfl
  exact hcomponent 9998

/-! ### The application -/

theorem Ready.exists_scene (h : Ready prompt t d) (journal : List JournalEntry) :
    ∃ view m s, (application prompt).scene.run ⟨t, journal⟩ =
        (.ok ⟨view, handler .root⟩, ⟨m, journal⟩) ∧
      Holds m s ∧ d.Matches s := by
  obtain ⟨s, hconfigured, hd⟩ := h
  obtain ⟨code, tips, hcode, -⟩ := exists_shownCode
    (hd.highlighter_eq ▸ Highlighter.faithful_plain : s.highlighter.Faithful) s.pending
    s.buffer.content
  have hinvoke : Program.Leads (some Hook.submission) .root (codeArea.invoke .root)
      (t.withDefault promptName (.styled prompt)) _ _ := leads_invoke hconfigured hcode
  have hscene := Component.leads_invoke_withState promptName (by decide) _ hinvoke
  rw [← start_styledField] at hscene
  exact ⟨_, _, s, hscene.run_root journal, hconfigured, hd⟩

theorem exists_reaction (prompt : StyledText) (h : Holds m s) (hd : d.Matches s) (event : Event)
    (view : View) (journal : List JournalEntry) :
    ∃ action s' m',
      ((application prompt).reaction {} ⟨view, handler .root⟩ event).run ⟨m, journal⟩ =
        (.ok action, ⟨m', journal⟩) ∧
      Step .submission s event action s' ∧ Holds m' s' := by
  have hvalid : s.buffer.Valid := hd.buffer_eq ▸ CodeBuffer.valid_ofParts _ _
  obtain ⟨action, s', m', hleads, hstep, hholds, -⟩ :=
    exists_leads_handler .submission h hvalid event
  exact ⟨action, s', m', UI.Leads.run_root hleads journal, hstep, hholds⟩

/-! ### The next round -/

/-- A scripted terminal was set up and given back as often as another one. -/
def SameCalls (device device' : Script) : Prop :=
  device'.setups = device.setups ∧ device'.restores = device.restores

/-- The frame of a round is drawn, and the application waits in the state that the draft tells of. -/
theorem Ready.exists_presents (h : Ready prompt p.session.tree d) :
    ∃ view m s frames shown, Presents (application prompt) Script.terminal p
        ⟨view, handler .root⟩ p.device.size
        ⟨{ p.device with frames }, ⟨m, p.session.journal⟩, shown, p.full⟩ ∧
      Holds m s ∧ d.Matches s := by
  obtain ⟨device, ⟨t, journal⟩, shown, full⟩ := p
  obtain ⟨view, m, s, hscene, hholds, hd⟩ := h.exists_scene journal
  exact ⟨view, m, s, _, _, .intro hscene rfl rfl, hholds, hd⟩

/-- Without a further event, the terminal fails. -/
theorem Ready.round_exhausted (h : Ready prompt p.session.tree d) (hevents : p.device.events = []) :
    ∃ p', Round (application prompt) {} Script.terminal p
        (.error (.failed (.terminal "event script exhausted"))) p' ∧
      SameCalls p.device p'.device := by
  obtain ⟨view, m, s, frames, shown, hpresents, -, -⟩ := h.exists_presents
  exact ⟨_, .noEvent hpresents (Script.run_readEvent_of_nil hevents), rfl, rfl⟩

/-- An event that submits ends the run, with the text of the draft in the tree. -/
theorem Ready.round_submitted (h : Ready prompt p.session.tree d)
    (hevents : p.device.events = event :: rest) (hsubmits : d.submits event = true) :
    ∃ t p', Round (application prompt) {} Script.terminal p (.error (.exited t)) p' ∧
      content t = .ok d.text ∧ p'.device.events = rest ∧ SameCalls p.device p'.device := by
  obtain ⟨view, m, s, frames, shown, hpresents, hholds, hd⟩ := h.exists_presents
  obtain ⟨action, s', m', hreact, hstep, hholds'⟩ :=
    exists_reaction prompt hholds hd event view p.session.journal
  obtain ⟨rfl, rfl⟩ := hd.submitted hsubmits hstep
  exact ⟨m', _, .exits hpresents (Script.run_readEvent_of_cons hevents) hreact rfl,
    content_of_holds hholds' hd, rfl, rfl, rfl⟩

/-- Any other event is one more for the draft. -/
theorem Ready.round_next (h : Ready prompt p.session.tree d)
    (hevents : p.device.events = event :: rest) (hsubmits : d.submits event = false) :
    ∃ action p', Round (application prompt) {} Script.terminal p (.ok action) p' ∧
      Ready prompt p'.session.tree (d.next event) ∧ p'.device.events = rest ∧
      SameCalls p.device p'.device := by
  obtain ⟨view, m, s, frames, shown, hpresents, hholds, hd⟩ := h.exists_presents
  obtain ⟨action, s', m', hreact, hstep, hholds'⟩ :=
    exists_reaction prompt hholds hd event view p.session.journal
  obtain ⟨hne, hd'⟩ := hd.next hsubmits hstep
  exact ⟨action, _, .goesOn hpresents (Script.run_readEvent_of_cons hevents) hreact hne,
    ready_of_holds hholds' hd', rfl, rfl, rfl⟩

/-! ### A whole run -/

/-- Rounds for events none of which submits. -/
theorem Ready.run_rounds (h : Ready prompt p.session.tree d)
    (hevents : p.device.events = before ++ rest) (hbefore : d.Unsubmitted before) :
    ∃ actions p', (rounds (application prompt) {} Script.terminal before.length).run p =
        (.ok actions, p') ∧
      Ready prompt p'.session.tree (before.foldl Draft.next d) ∧ p'.device.events = rest ∧
      SameCalls p.device p'.device := by
  induction before generalizing p d with
  | nil => exact ⟨[], p, rfl, h, hevents, rfl, rfl⟩
  | cons event before ih =>
    obtain ⟨hsubmits, hbefore⟩ := hbefore
    obtain ⟨action, p₁, hround, h₁, hevents₁, hsetups, hrestores⟩ := h.round_next hevents hsubmits
    obtain ⟨actions, p', hrun, h', hrest, hsetups', hrestores'⟩ := ih h₁ hevents₁ hbefore
    refine ⟨action :: actions, p', ?_, h', hrest, hsetups'.trans hsetups,
      hrestores'.trans hrestores⟩
    rw [List.length_cons, run_rounds_of_ok hround, hrun]
    rfl

/-- What is read when a round ends the run, after others that went through. -/
theorem read_of_run_rounds {events : List Event} {size : Size} {k n : Nat} {actions : List Action}
    {ending : Ending} {p' : Progress Script}
    (hrun : (rounds (application prompt) {} Script.terminal k).run
      (Application.atStart events size) = (.ok actions, p))
    (hend : Round (application prompt) {} Script.terminal p (.error ending) p') :
    read prompt Script.terminal (k + (n + 1)) { events, size } =
      (some (result ending), { p'.device with restores := p'.device.restores + 1 }) := by
  have hsetup : Script.terminal.setup.run { events, size } =
      (.ok (), (Application.atStart events size).device) := rfl
  have hrounds := run_rounds_add hrun (n + 1)
  rw [run_rounds_of_error hend] at hrounds
  rw [read, Application.runOn_of_rounds_error hsetup hrounds]
  rfl

/-- **The line editor reads what plain editing gives.** For every prompt, size of the terminal and
list of events, either none of the events submits, and what comes of the run is the error of the
terminal that has no further event; or there is a first one that submits, and the result is the text
that the rules of plain editing make of the events before it, with those after it left. Nothing else
can come of it, and the terminal is taken over and given back once. -/
theorem read_script (prompt : StyledText) (size : Size) (events : List Event) (extra : Nat) :
    let script : Script := { events, size }
    let (outcome, device) := read prompt Script.terminal (script.rounds + extra) script
    device.setups = 1 ∧ device.restores = 1 ∧
      (Draft.Unsubmitted {} events ∧
          outcome = some (.ok (.error (.terminal "event script exhausted"))) ∨
        ∃ before event later, events = before ++ event :: later ∧
          Draft.Unsubmitted {} before ∧ (Draft.ofEvents before).submits event = true ∧
          outcome = some (.ok (.ok (Draft.ofEvents before).text)) ∧ device.events = later) := by
  intro script
  have hready : Ready prompt (Application.atStart events size).session.tree {} :=
    ready_empty prompt
  rcases Draft.unsubmitted_or {} events with hnone | ⟨before, event, later, rfl, hbefore, hsubmits⟩
  · obtain ⟨actions, p, hrun, h, hrest, hsetups, hrestores⟩ :=
      hready.run_rounds (List.append_nil events).symm hnone
    obtain ⟨p', hround, hsetups', hrestores'⟩ := h.round_exhausted hrest
    have hrounds : script.rounds + extra = events.length + (extra + 1) := by
      rw [Script.rounds, Nat.add_assoc, Nat.add_comm 1]
    rw [hrounds, read_of_run_rounds hrun hround]
    exact ⟨hsetups'.trans hsetups, congrArg (· + 1) (hrestores'.trans hrestores),
      .inl ⟨hnone, rfl⟩⟩
  · obtain ⟨actions, p, hrun, h, hrest, hsetups, hrestores⟩ := hready.run_rounds rfl hbefore
    obtain ⟨t, p', hround, hcontent, hlater, hsetups', hrestores'⟩ :=
      h.round_submitted hrest hsubmits
    have hrounds : script.rounds + extra = before.length + (later.length + 1 + extra + 1) := by
      simp only [Script.rounds, script, List.length_append, List.length_cons]
      omega
    rw [hrounds, read_of_run_rounds hrun hround]
    refine ⟨hsetups'.trans hsetups, congrArg (· + 1) (hrestores'.trans hrestores),
      .inr ⟨before, event, later, rfl, hbefore, hsubmits, ?_, hlater⟩⟩
    rw [result, hcontent]
    rfl

end LineEditor

end TerminalUI
