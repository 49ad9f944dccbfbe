import TerminalUI.Hook.Basic
import TerminalUI.Proofs.Application.Agreement
import TerminalUI.Proofs.Program.Steps
import TerminalUI.Proofs.State.Growth

/-!
# Messages of failed hooks

The entry `-error` of a level is kept up to date where an event is dispatched: it holds the message
of the last hook call there if that call failed, and is missing if it succeeded. The journal of a
hook (`Hook.journaled`) tells which calls were completed, and `BindingLevels.Tracks` says of a session
that its error entries are those that the journal asks for.

Neither components nor hook may write these entries themselves, or put a leaf where a level is. For a
component this is a matter of the trees that it writes (`Program.Careful`); a hook does nothing to a
session but such writes and calls of the handler that it was given (`Hook.Does`), of which it may make
any number.

* `BindingLevels.exists_run_dispatchThrough` : what is reported for an outcome, and what it leaves in
  the entry of its level and of others.
* `Program.Careful.tracks` : a careful program under a careful hook keeps track, by induction on the
  program; hook calls inside of each other are an induction step of their own.
* `Embedded.messages_follow_outcomes` : **the error entries are those of the last outcomes** after
  every sequence of events.
-/

namespace TerminalUI

/-! ### Outcomes -/

/-- The completed hook calls, last first: the level and the outcome of each. -/
def completedCalls : List JournalEntry → List (Path × Except Error Action)
  | [] => []
  | .dispatched _ level outcome :: rest => (level, outcome) :: completedCalls rest
  | .submitted .. :: rest => completedCalls rest

/-- The outcome of the last completed hook call at a level. -/
def lastOutcome? (journal : List JournalEntry) (level : Path) : Option (Except Error Action) :=
  (completedCalls journal).lookup level

/-- What the error entry holds after an outcome: the message of an error. -/
def messageEntry : Option (Except Error Action) → Option Value
  | some (.error e) => some (.string e.message)
  | some (.ok _) | none => none

/-- What a binding point reports for the outcome of its hook call. -/
def reported : Except Error Action → Action
  | .ok action => action
  | .error _ => .errored

/-- The view after an outcome: the message of an error, in red, takes the place of the own view. -/
def shownAfter (outcome : Option (Except Error Action)) (view : View) : View :=
  match outcome with
  | some (.error e) => .text [.ofString e.message { foreground := some .red }] 0
  | some (.ok _) | none => view

theorem lastOutcome?_dispatched (tag : String) (level level' : Path)
    (outcome : Except Error Action) (journal : List JournalEntry) :
    lastOutcome? (.dispatched tag level outcome :: journal) level' =
      if level' = level then some outcome else lastOutcome? journal level' := by
  rw [lastOutcome?, completedCalls, List.lookup_cons]
  by_cases h : level' = level
  · rw [if_pos h, h, beq_self_eq_true]
  · rw [if_neg h, beq_false_of_ne h, lastOutcome?]

/-- Behind a hook that has answered with an action, that action is reported, and besides at most the
message of an earlier failure was taken away. -/
theorem exists_run_dispatchThrough_of_ok {hook : Hook} {level : Path} {tag : String} {event : Event}
    {handler : Event → UI Action} {s s₁ : Session} {action : Action}
    (h : (hook event level tag handler).run s = (.ok (.ok action), s₁)) :
    ∃ t, (dispatchThrough (some hook) level tag event handler).run s =
        (.ok action, { s₁ with tree := t }) ∧ Tree.SameBeside level {errorName} s₁.tree t := by
  rw [dispatchThrough]
  dsimp only
  rw [run_bind_of_ok h]
  dsimp only
  rw [run_bind_of_ok (UI.run_tree s₁)]
  cases hentry : s₁.tree.resolve (level.child errorName) with
  | none => exact ⟨s₁.tree, rfl, .refl level _ _⟩
  | some v =>
    obtain ⟨m, hm⟩ := Tree.exists_map_of_child hentry
    rw [Tree.resolve_child hm] at hentry
    obtain ⟨t, hremove, -⟩ :=
      Tree.remove_child hm (by rw [hentry, Option.isSome_some])
    refine ⟨t, ?_, Tree.sameBeside_remove hremove⟩
    rw [Option.isSome_some, if_pos rfl, hremove]
    rfl

/-! ### Levels with binding points -/

/-- The levels with binding points, and the trees that components and hook can rely on. In these,
nothing is in the way of an error entry, and they stay such trees when error entries are put or
removed. -/
structure BindingLevels where
  levels : Set Path
  good : Tree → Prop
  /-- No level is below the error entry of another one. -/
  separate : ∀ l ∈ levels, ∀ l' ∈ levels, ¬ (l.child errorName).segments <+: l'.segments
  clear : ∀ {t}, good t → ∀ l ∈ levels, ∀ q w, ¬ t.Obstructs (l.child errorName) q w
  good_update : ∀ {t t'}, good t → ∀ l ∈ levels, ∀ message,
    t.update (l.child errorName) (.string message) = .ok t' → good t'
  good_remove : ∀ {t t'}, good t → ∀ l ∈ levels, t.remove (l.child errorName) = .ok t' → good t'

variable {B : BindingLevels} {α β : Type} {R : α → Prop} {R' : β → Prop} {t t' : Tree}
  {s s' s₁ : Session} {level other : Path} {tag : String} {event : Event}

namespace BindingLevels

/-- A write of a tree that is no error entry's, and leaves the levels where they are. -/
def Keeps (B : BindingLevels) (t t' : Tree) : Prop :=
  B.good t' ∧ ∀ level ∈ B.levels,
    t'.resolve (level.child errorName) = t.resolve (level.child errorName)

/-- The error entries are those that the last outcomes ask for. -/
def Tracks (B : BindingLevels) (s : Session) : Prop :=
  B.good s.tree ∧ ∀ level ∈ B.levels,
    s.tree.resolve (level.child errorName) = messageEntry (lastOutcome? s.journal level)

theorem Keeps.tracks (h : B.Keeps s.tree s'.tree) (hs : B.Tracks s)
    (hcalls : completedCalls s'.journal = completedCalls s.journal) : B.Tracks s' := by
  refine ⟨h.1, fun level hlevel => ?_⟩
  rw [h.2 level hlevel, hs.2 level hlevel, lastOutcome?, lastOutcome?, hcalls]

/-- What changes at the error entry of a level only is not seen in that of another one. -/
theorem resolve_other (B : BindingLevels) (hlevel : level ∈ B.levels) (hother : other ∈ B.levels)
    (hne : other ≠ level) (h : Tree.SameBeside level {errorName} t t') :
    t'.resolve (other.child errorName) = t.resolve (other.child errorName) := by
  refine h _ (B.separate other hother level hlevel) fun name hname hprefix => ?_
  rw [Set.mem_singleton_iff.mp hname] at hprefix
  rcases Path.prefix_or_eq_of_prefix_child hprefix with habove | heq
  · exact B.separate level hlevel other hother habove
  · exact hne (Path.eq_of_child_eq heq).1.symm

/-- The message of an error is put into the entry. -/
theorem exists_update (hlevel : level ∈ B.levels) (ht : B.good t) (message : String) :
    ∃ t', t.update (level.child errorName) (.string message) = .ok t' ∧ B.good t' ∧
      t'.resolve (level.child errorName) = some (.string message) ∧
      Tree.SameBeside level {errorName} t t' := by
  rcases t.exists_put_or_obstructs (level.child errorName) (.string message) with
    ⟨t', hput⟩ | ⟨hroot, -⟩ | ⟨q, w, hq⟩
  · have hupdate := Tree.update_eq_ok_iff.mpr hput
    exact ⟨t', hupdate, B.good_update ht level hlevel message hupdate, hput.resolveFrom_self,
      Tree.sameBeside_update (List.prefix_refl _) hupdate⟩
  · exact absurd hroot (Path.child_ne_root level errorName)
  · exact absurd hq (B.clear ht level hlevel q w)

/-- A message that is there is removed. -/
theorem exists_remove (hlevel : level ∈ B.levels) (ht : B.good t)
    (hentry : (t.resolve (level.child errorName)).isSome) :
    ∃ t', t.remove (level.child errorName) = .ok t' ∧ B.good t' ∧
      t'.resolve (level.child errorName) = none ∧ Tree.SameBeside level {errorName} t t' := by
  obtain ⟨v, hv⟩ := Option.isSome_iff_exists.mp hentry
  obtain ⟨m, hm⟩ := Tree.exists_map_of_child hv
  rw [Tree.resolve_child hm] at hentry
  obtain ⟨t', hremove, hm', -⟩ := Tree.remove_child hm hentry
  refine ⟨t', hremove, B.good_remove ht level hlevel hremove, ?_, Tree.sameBeside_remove hremove⟩
  rw [Tree.resolve_child hm', Tree.get?_erase, if_pos rfl]

/-- **A completed hook call**: its outcome is reported, and decides about the entry of its level; the
entries of other levels stay as they are. -/
theorem exists_run_dispatchThrough {hook : Hook} {handler : Event → UI Action}
    {outcome : Except Error Action} (hlevel : level ∈ B.levels)
    (hrun : (hook event level tag handler).run s = (.ok outcome, s₁)) (hgood : B.good s₁.tree) :
    ∃ t, (dispatchThrough (some hook) level tag event handler).run s =
        (.ok (reported outcome), { s₁ with tree := t }) ∧ B.good t ∧
      t.resolve (level.child errorName) = messageEntry (some outcome) ∧
      ∀ other ∈ B.levels, other ≠ level →
        t.resolve (other.child errorName) = s₁.tree.resolve (other.child errorName) := by
  rw [dispatchThrough]
  dsimp only
  rw [run_bind_of_ok hrun]
  cases outcome with
  | ok action =>
    dsimp only
    rw [run_bind_of_ok (UI.run_tree s₁)]
    by_cases hentry : (s₁.tree.resolve (level.child errorName)).isSome
    · obtain ⟨t, hremove, hgood', hnone, hsame⟩ := exists_remove hlevel hgood hentry
      refine ⟨t, ?_, hgood', hnone, fun other hother hne => B.resolve_other hlevel hother hne hsame⟩
      rw [if_pos hentry, hremove]
      rfl
    · refine ⟨s₁.tree, ?_, hgood, ?_, fun _ _ _ => rfl⟩
      · rw [if_neg hentry]
        rfl
      · simpa [messageEntry] using hentry
  | error e =>
    obtain ⟨t, hupdate, hgood', hsome, hsame⟩ := exists_update hlevel hgood e.message
    refine ⟨t, ?_, hgood', hsome, fun other hother hne => B.resolve_other hlevel hother hne hsame⟩
    dsimp only
    rw [run_bind_of_ok (UI.run_tree s₁), hupdate]
    rfl

end BindingLevels

/-! ### Careful components and hooks -/

/-- From a tree, the handler writes no error entries, and has binding points at the levels only. -/
inductive Reaction.Careful (B : BindingLevels) : Tree → Reaction → Prop where
  | done (t : Tree) (action : Action) : Careful B t (.done action)
  | fault (t : Tree) (f : Fault) : Careful B t (.fault f)
  | read {t : Tree} {next : Tree → Reaction} (h : Careful B t (next t)) : Careful B t (.read next)
  | write {t t' : Tree} {next : Reaction} (hkeeps : B.Keeps t t') (h : Careful B t' next) :
    Careful B t (.write t' next)
  | dispatch {t : Tree} {level : Path} {tag : String} {event : Event}
    {handler : Event → Reaction} {next : Action → Reaction} (hlevel : level ∈ B.levels)
    (hhandler : ∀ event t, B.good t → Careful B t (handler event))
    (hnext : ∀ action t, B.good t → Careful B t (next action)) :
    Careful B t (.dispatch level tag event handler next)

/-- From a tree, the program writes no error entries, has binding points at the levels only, and ends
with such a result as is asked for. -/
inductive Program.Careful {α : Type} (B : BindingLevels) (R : α → Prop) :
    Tree → Program α → Prop where
  | done {t : Tree} {a : α} (h : R a) : Careful B R t (.done a)
  | fault (t : Tree) (f : Fault) : Careful B R t (.fault f)
  | read {t : Tree} {next : Tree → Program α} (h : Careful B R t (next t)) :
    Careful B R t (.read next)
  | write {t t' : Tree} {next : Program α} (hkeeps : B.Keeps t t') (h : Careful B R t' next) :
    Careful B R t (.write t' next)
  | dispatch {t : Tree} {level : Path} {tag : String} {event : Event}
    {handler : Event → Reaction} {next : Action → Program α} (hlevel : level ∈ B.levels)
    (hhandler : ∀ event t, B.good t → (handler event).Careful B t)
    (hnext : ∀ action t, B.good t → Careful B R t (next action)) :
    Careful B R t (.dispatch level tag event handler next)

/-- From every tree that can be relied on, the program is careful. -/
def Program.Minds (B : BindingLevels) (R : α → Prop) (p : Program α) : Prop :=
  ∀ t, B.good t → p.Careful B R t

/-- The handler is careful with every event. -/
def Handler.Careful (B : BindingLevels) (handler : Handler) : Prop :=
  ∀ event, (handler event).Minds B fun _ => True

/-- The component is careful at a level, and so are the handlers of its scenes. -/
def Component.Careful (B : BindingLevels) (c : Component) (level : Path) : Prop :=
  (c level).Minds B fun scene => scene.handler.Careful B

/-- What a hook may do to a session: writes that are no error entries', and calls of its handler. -/
inductive Hook.Does (B : BindingLevels) (handler : Event → UI Action) :
    Session → Session → Prop where
  | refl (s : Session) : Does B handler s s
  | own {s s' s'' : Session} (h : Does B handler s s')
    (hkeeps : B.good s'.tree → B.Keeps s'.tree s''.tree)
    (hcalls : completedCalls s''.journal = completedCalls s'.journal) : Does B handler s s''
  | call {s s' : Session} (h : Does B handler s s') (event : Event) :
    Does B handler s ((handler event).run s').2

/-- At the levels, the hook does only what it may. -/
def Hook.Careful (B : BindingLevels) (hook : Hook) : Prop :=
  ∀ level ∈ B.levels, ∀ event tag handler s,
    Hook.Does B handler s ((hook event level tag handler).run s).2

namespace Program

theorem Careful.bind {p : Program α} {f : α → Program β} (h : p.Careful B R t) (ht : B.good t)
    (hf : ∀ a, R a → (f a).Minds B R') : (p >>= f).Careful B R' t := by
  induction h with
  | done hR => exact hf _ hR _ ht
  | fault t f => exact .fault t f
  | read _ ih => exact .read (ih ht)
  | write hkeeps _ ih => exact .write hkeeps (ih hkeeps.1)
  | dispatch hlevel hhandler _ ih =>
    exact .dispatch hlevel hhandler fun action t ht => ih action t ht ht

theorem Minds.bind {p : Program α} {f : α → Program β} (h : p.Minds B R)
    (hf : ∀ a, R a → (f a).Minds B R') : (p >>= f).Minds B R' :=
  fun t ht => (h t ht).bind ht hf

theorem Minds.pure {a : α} (h : R a) : (pure a : Program α).Minds B R := fun _ _ => .done h

theorem Minds.ofExcept (r : Except Fault α) : (ofExcept r).Minds B fun _ => True := by
  intro t _
  cases r with
  | ok a => exact .done trivial
  | error f => exact .fault t f

theorem Minds.value? [Storable α] (v : Var α) : v.value?.Minds B fun _ => True :=
  fun _ _ => .read (.done trivial)

theorem Minds.tryGet [Storable α] (v : Var α) : v.tryGet.Minds B fun _ => True :=
  fun _ _ => .read (.done trivial)

theorem Minds.get [Storable α] (v : Var α) : v.get.Minds B fun _ => True := by
  refine (Minds.tryGet v).bind fun r _ => ?_
  cases r with
  | ok a => exact .pure trivial
  | error e => exact fun t _ => .fault t _

theorem Careful.toReaction {R : Action → Prop} {p : Program Action} (h : p.Careful B R t) :
    p.toReaction.Careful B t := by
  induction h with
  | done => exact .done _ _
  | fault t f => exact .fault t f
  | read _ ih => exact .read ih
  | write hkeeps _ ih => exact .write hkeeps ih
  | dispatch hlevel hhandler _ ih => exact .dispatch hlevel hhandler ih

end Program

theorem Handler.Careful.withBinding {handler : Handler} (h : handler.Careful B)
    (hlevel : level ∈ B.levels) (tag : String) :
    (TerminalUI.withBinding level tag handler).Careful B := fun _ _ _ =>
  .dispatch hlevel (fun event t ht => (h event t ht).toReaction) fun _ _ _ => .done trivial

/-- The message of a failed hook takes the place of the view, and the handler stays. -/
theorem Component.invoke_minds {c : Component} {P : Handler → Prop}
    (h : (c level).Minds B fun scene => P scene.handler) :
    (c.invoke level).Minds B fun scene => P scene.handler := by
  refine h.bind fun scene hscene => ?_
  refine (Program.Minds.tryGet _).bind fun message _ => ?_
  cases message with
  | ok message => exact .pure hscene
  | error e => exact .pure hscene

theorem Component.Careful.invoke {c : Component} (h : c.Careful B level) :
    c.invoke.Careful B level := invoke_minds h

/-! ### Runs keep track -/

/-- What a hook does keeps track, if its handler does. -/
theorem Hook.Does.tracks {handler : Event → UI Action} (h : Hook.Does B handler s s')
    (hs : B.Tracks s)
    (hhandler : ∀ event s, B.Tracks s → B.Tracks ((handler event).run s).2) : B.Tracks s' := by
  induction h with
  | refl => exact hs
  | own _ hkeeps hcalls ih => exact (hkeeps ih.1).tracks ih hcalls
  | call _ event ih => exact hhandler event _ ih

/-- What is left of a session whose hook call is recorded with its outcome. -/
theorem Hook.run_journaled_of_ok {hook : Hook} {handler : Event → UI Action}
    {outcome : Except Error Action}
    (hrun : (hook event level tag handler).run s = (.ok outcome, s₁)) :
    (hook.journaled event level tag handler).run s =
      (.ok outcome, { s₁ with journal := .dispatched tag level outcome :: s₁.journal }) := by
  rw [Hook.journaled, run_bind_of_ok hrun]
  rfl

/-- A binding point keeps track. -/
theorem BindingLevels.tracks_dispatchThrough {hook : Hook} (hhook : hook.Careful B)
    {handler : Event → UI Action} (hlevel : level ∈ B.levels) (tag : String) (event : Event)
    (hhandler : ∀ event s, B.Tracks s → B.Tracks ((handler event).run s).2) (hs : B.Tracks s) :
    B.Tracks ((dispatchThrough (some hook.journaled) level tag event handler).run s).2 := by
  rcases hrun : (hook event level tag handler).run s with ⟨r, s₁⟩
  have hs₁ : B.Tracks s₁ := by
    have hdoes := hhook level hlevel event tag handler s
    rw [hrun] at hdoes
    exact hdoes.tracks hs hhandler
  cases r with
  | error f =>
    have hjournaled : (hook.journaled event level tag handler).run s = (.error f, s₁) := by
      rw [Hook.journaled, run_bind_of_error hrun]
    rw [dispatchThrough]
    dsimp only
    rw [run_bind_of_error hjournaled]
    exact hs₁
  | ok outcome =>
    obtain ⟨t, hdispatch, hgood, hentry, hothers⟩ :=
      exists_run_dispatchThrough hlevel (Hook.run_journaled_of_ok hrun) hs₁.1
    rw [hdispatch]
    refine ⟨hgood, fun other hother => ?_⟩
    dsimp only
    rw [lastOutcome?_dispatched]
    by_cases hne : other = level
    · rw [if_pos hne, hne, hentry]
    · rw [if_neg hne, hothers other hother hne]
      exact hs₁.2 other hother

variable {hook : Hook} {journal : List JournalEntry}

/-- What is dispatched to a binding point and then gone on with. -/
theorem BindingLevels.tracks_bind (hhook : hook.Careful B) {handler : Event → UI Action}
    {next : Action → UI α} (hlevel : level ∈ B.levels) (hs : B.Tracks s)
    (hhandler : ∀ event s, B.Tracks s → B.Tracks ((handler event).run s).2)
    (hnext : ∀ action s, B.Tracks s →
      B.Tracks ((next action).run s).2 ∧ ∀ a, ((next action).run s).1 = .ok a → R a) :
    let c := dispatchThrough (some hook.journaled) level tag event handler >>= next
    B.Tracks (c.run s).2 ∧ ∀ a, (c.run s).1 = .ok a → R a := by
  intro c
  have hdispatch := tracks_dispatchThrough hhook hlevel tag event hhandler hs
  rcases hrun : (dispatchThrough (some hook.journaled) level tag event handler).run s with
    ⟨f | action, s₁⟩
  · rw [hrun] at hdispatch
    rw [run_bind_of_error hrun]
    exact ⟨hdispatch, nofun⟩
  · rw [hrun] at hdispatch
    rw [run_bind_of_ok hrun]
    exact hnext action s₁ hdispatch

theorem Reaction.Careful.tracks (hhook : hook.Careful B) {r : Reaction} (h : r.Careful B t)
    (hs : B.Tracks ⟨t, journal⟩) :
    B.Tracks ((r.run (some hook.journaled)).run ⟨t, journal⟩).2 := by
  induction h generalizing journal with
  | done => exact hs
  | fault => exact hs
  | read _ ih => exact ih hs
  | write hkeeps _ ih => exact ih (hkeeps.tracks hs rfl)
  | dispatch hlevel _ _ ihhandler ihnext =>
    refine (BindingLevels.tracks_bind (R := fun _ => True) hhook hlevel hs (fun event s hs => ?_)
      fun action s hs => ⟨?_, fun _ _ => trivial⟩).1
    · exact ihhandler event s.tree hs.1 hs
    · exact ihnext action s.tree hs.1 hs

/-- **A careful program keeps track** under a careful hook, and ends with such a result as it is
to. -/
theorem Program.Careful.tracks (hhook : hook.Careful B) {p : Program α} (h : p.Careful B R t)
    (hs : B.Tracks ⟨t, journal⟩) :
    B.Tracks ((p.run (some hook.journaled)).run ⟨t, journal⟩).2 ∧
      ∀ a, ((p.run (some hook.journaled)).run ⟨t, journal⟩).1 = .ok a → R a := by
  induction h generalizing journal with
  | done hR =>
    refine ⟨hs, fun a ha => ?_⟩
    cases ha
    exact hR
  | fault => exact ⟨hs, nofun⟩
  | read _ ih => exact ih hs
  | write hkeeps _ ih => exact ih (hkeeps.tracks hs rfl)
  | dispatch hlevel hhandler _ ih =>
    refine BindingLevels.tracks_bind hhook hlevel hs (fun event s hs => ?_) fun action s hs => ?_
    · exact (hhandler event s.tree hs.1).tracks hhook hs
    · exact ih action s.tree hs.1 hs

/-- From a session that keeps track, a completed hook call is reported, and track is kept of it. -/
theorem BindingLevels.exists_run_binding (hhook : hook.Careful B) {handler : Handler}
    (hhandler : handler.Careful B) (hlevel : level ∈ B.levels) (hs : B.Tracks s)
    {outcome : Except Error Action}
    (hrun : (hook.journaled event level tag fun event =>
      (handler event).run (some hook.journaled)).run s = (.ok outcome, s₁)) :
    ∃ t, (dispatchThrough (some hook.journaled) level tag event fun event =>
        (handler event).run (some hook.journaled)).run s =
        (.ok (reported outcome), { s₁ with tree := t }) ∧ B.Tracks { s₁ with tree := t } ∧
      t.resolve (level.child errorName) = messageEntry (some outcome) ∧
      ∀ other ∈ B.levels, other ≠ level →
        t.resolve (other.child errorName) = s₁.tree.resolve (other.child errorName) := by
  have hhandler' (event : Event) (s : Session) (hs : B.Tracks s) :
      B.Tracks (((handler event).run (some hook.journaled)).run s).2 :=
    ((hhandler event s.tree hs.1).tracks hhook hs).1
  have hgood : B.good s₁.tree := by
    have hdoes := hhook level hlevel event tag (fun event =>
      (handler event).run (some hook.journaled)) s
    rcases hown : (hook event level tag fun event => (handler event).run (some hook.journaled)).run s
      with ⟨f | outcome', s₂⟩
    · rw [Hook.journaled, run_bind_of_error hown] at hrun
      cases hrun
    · rw [Hook.run_journaled_of_ok hown] at hrun
      rw [hown] at hdoes
      cases hrun
      exact (hdoes.tracks hs hhandler').1
  obtain ⟨t, hdispatch, -, hentry, hothers⟩ := exists_run_dispatchThrough hlevel hrun hgood
  refine ⟨t, hdispatch, ?_, hentry, hothers⟩
  have htracks := tracks_dispatchThrough hhook hlevel tag event hhandler' hs
  rw [hdispatch] at htracks
  exact htracks

/-- An invocation shows the message of the last call, if that failed; the handler is the same. -/
theorem BindingLevels.run_invoke (hhook : hook.Careful B) {c : Component} (hc : c.Careful B level)
    (hlevel : level ∈ B.levels) (hs : B.Tracks s) {scene : Scene}
    (hrun : ((c level).run (some hook.journaled)).run s = (.ok scene, s')) :
    ((c.invoke level).run (some hook.journaled)).run s =
      (.ok { scene with view := shownAfter (lastOutcome? s'.journal level) scene.view }, s') := by
  have hs' : B.Tracks s' := by
    have htracks := ((hc s.tree hs.1).tracks hhook hs).1
    rw [hrun] at htracks
    exact htracks
  have hentry := hs'.2 level hlevel
  rw [Component.invoke, Program.run_bind_of_ok hrun]
  dsimp only
  rw [Program.run_bind_of_ok (Var.run_tryGet _ s' _), Tree.load, hentry]
  rcases lastOutcome? s'.journal level with _ | e | action
  · rfl
  · rw [shownAfter, ← View.error_eq]
    rfl
  · rfl

/-! ### Applications -/

namespace Embedded

/-- The embedded application runs a careful component under a careful hook with a journal, and its
error entries are those that the journal asks for. -/
structure Tracks (B : BindingLevels) (c : Component) (hook : Hook) (w : Embedded) : Prop where
  application : w.application = ⟨c, some hook.journaled⟩
  session : B.Tracks w.session
  handler : w.scene.handler.Careful B

variable {c : Component} {w w' : Embedded} {action : Action} {actions : List Action}

theorem tracks_of_run_scene (hc : c.Careful B .root) (hhook : hook.Careful B) (hs : B.Tracks s)
    {scene : Scene} (hscene : (Application.scene ⟨c, some hook.journaled⟩).run s = (.ok scene, s')) :
    Tracks B c hook ⟨⟨c, some hook.journaled⟩, s', scene⟩ := by
  have hrun : ((c.invoke .root).run (some hook.journaled)).run s = (.ok scene, s') := hscene
  obtain ⟨hsession, hhandler⟩ := (hc.invoke s.tree hs.1).tracks hhook hs
  rw [hrun] at hsession hhandler
  exact ⟨rfl, hsession, hhandler scene rfl⟩

theorem tracks_start (hc : c.Careful B .root) (hhook : hook.Careful B) (ht : B.Tracks ⟨t, []⟩)
    (hstart : Embedded.start ⟨c, some hook.journaled⟩ t = .ok w) : Tracks B c hook w := by
  rcases hrun : (Application.scene ⟨c, some hook.journaled⟩).run ⟨t, []⟩ with ⟨f | scene, session⟩
  · rw [Embedded.start, hrun] at hstart
    cases hstart
  · rw [Embedded.start, hrun] at hstart
    cases hstart
    exact tracks_of_run_scene hc hhook ht hrun

theorem Tracks.dispatch (h : Tracks B c hook w) (hc : c.Careful B .root) (hhook : hook.Careful B)
    (hdispatch : w.dispatch event = .ok (action, w')) : Tracks B c hook w' := by
  obtain ⟨s, hreact, hscene, happ⟩ := exists_run_of_dispatch_eq_ok hdispatch
  rw [h.application] at hreact hscene happ
  have hhandler : ((w.scene.handler event).run (some hook.journaled)).run w.session =
      (.ok action, s) := hreact
  have hs := ((h.handler event w.session.tree h.session.1).tracks hhook h.session).1
  rw [hhandler] at hs
  obtain ⟨app, session, scene⟩ := w'
  cases happ
  exact tracks_of_run_scene hc hhook hs hscene

theorem Tracks.dispatchAll (h : Tracks B c hook w) (hc : c.Careful B .root)
    (hhook : hook.Careful B) {events : List Event}
    (hrun : w.dispatchAll events = .ok (actions, w')) : Tracks B c hook w' := by
  induction events generalizing w actions with
  | nil =>
    cases hrun
    exact h
  | cons event events ih =>
    obtain ⟨action, w₁, rest, hdispatch, hrest, -⟩ := exists_of_dispatchAll_cons_eq_ok hrun
    exact ih (h.dispatch hc hhook hdispatch) hrest

/-- **The error entries are those of the last outcomes.** A careful component and a careful hook start
on a tree without error entries.

* After any events, the entry of a level holds the message of the last completed hook call there if
  that call failed, and is missing if it succeeded, or if there was none.
* At every binding point that is reached while track is kept, a failed call is reported as an error
  and its message is put into the entry; a call that succeeded is reported as it is and leaves no
  entry. In both cases the entries of other levels stay as they are, and track is kept.
* Whenever track is kept, an invocation of a component at a level shows the message of the last call
  there, if it failed, in the place of its view, and has the handler of its own scene. -/
theorem messages_follow_outcomes (hc : c.Careful B .root) (hhook : hook.Careful B) (ht : B.good t)
    (hnone : ∀ level ∈ B.levels, t.resolve (level.child errorName) = none) :
    (∀ w events actions w', Embedded.start ⟨c, some hook.journaled⟩ t = .ok w →
      w.dispatchAll events = .ok (actions, w') → B.Tracks w'.session) ∧
    (∀ level ∈ B.levels, ∀ tag event (handler : Handler) s outcome s₁, handler.Careful B →
      B.Tracks s →
      (hook.journaled event level tag fun event =>
        (handler event).run (some hook.journaled)).run s = (.ok outcome, s₁) →
      ∃ t, (dispatchThrough (some hook.journaled) level tag event fun event =>
          (handler event).run (some hook.journaled)).run s =
          (.ok (reported outcome), { s₁ with tree := t }) ∧ B.Tracks { s₁ with tree := t } ∧
        t.resolve (level.child errorName) = messageEntry (some outcome) ∧
        ∀ other ∈ B.levels, other ≠ level →
          t.resolve (other.child errorName) = s₁.tree.resolve (other.child errorName)) ∧
    ∀ level ∈ B.levels, ∀ (c' : Component) s scene s', c'.Careful B level → B.Tracks s →
      ((c' level).run (some hook.journaled)).run s = (.ok scene, s') →
      ((c'.invoke level).run (some hook.journaled)).run s =
        (.ok { scene with view := shownAfter (lastOutcome? s'.journal level) scene.view }, s') := by
  have hs : B.Tracks ⟨t, []⟩ := ⟨ht, hnone⟩
  refine ⟨fun w events actions w' hstart hrun => ?_, ?_, ?_⟩
  · exact ((tracks_start hc hhook hs hstart).dispatchAll hc hhook hrun).session
  · intro level hlevel tag event handler s outcome s₁ hhandler hs hrun
    exact BindingLevels.exists_run_binding hhook hhandler hlevel hs hrun
  · intro level hlevel c' s scene s' hc' hs hrun
    exact BindingLevels.run_invoke hhook hc' hlevel hs hrun

end Embedded

end TerminalUI
