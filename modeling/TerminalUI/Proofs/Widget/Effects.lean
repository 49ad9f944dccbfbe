import TerminalUI.Proofs.CodeArea.Reaction
import TerminalUI.Proofs.Hook.Messages
import TerminalUI.Proofs.Program.Ends
import TerminalUI.Widget.ComboBox

/-!
# What widgets write

Whatever a tree holds, a code area and a list box write entries of their own levels only.

* `CodeArea.handler_ends` : a code area that has no use for an event leaves the code as it is. This is
  so under the keymaps too, which look at its answer before they move the dot.
* `ListBox.handler_ends` : a list box moves the selection on Up and Down only.
* `CodeArea.scene_ends`, `ListBox.scene_ends` : a scene leaves the code, the items and the selection as
  they are, and makes an empty code if there is none.
-/

namespace TerminalUI

open Program

variable {hook : Option Hook} {keymap : CodeArea.Keymap} {level : Path} {t t' t'' : Tree}
  {action : Action} {h : Handler}

namespace CodeArea

/-- The entries that a code area writes: all but the one that holds its blueprint. -/
def ownNames : Set Name := {name | name ≠ componentName}

/-- The entries that a code area writes besides the code. -/
def sideNames : Set Name := {name | name ≠ componentName ∧ name ≠ bufferName}

/-- What is written for an answer: entries of the code area, and not the code, if it had no use for
the event. -/
structure Answers (level : Path) (t : Tree) (action : Action) (t' : Tree) : Prop where
  written : Tree.SameBeside level ownNames t t'
  unused : action = .unused → Tree.SameBeside level sideNames t t'

theorem Answers.of_side (hside : Tree.SameBeside level sideNames t t') :
    Answers level t action t' :=
  ⟨hside.mono fun _ hname => hname.1, fun _ => hside⟩

/-- Entries besides the code may be written later on. -/
theorem Answers.trans (hanswers : Answers level t action t')
    (hside : Tree.SameBeside level sideNames t' t'') : Answers level t action t'' :=
  ⟨hanswers.written.trans (hside.mono fun _ hname => hname.1),
    fun heq => (hanswers.unused heq).trans hside⟩

theorem singleton_subset_ownNames {name : Name} (hname : name ≠ componentName) :
    {name} ⊆ ownNames :=
  Set.singleton_subset_iff.mpr hname

theorem singleton_subset_sideNames {name : Name} (hname : name ≠ componentName)
    (hbuffer : name ≠ bufferName) : {name} ⊆ sideNames :=
  Set.singleton_subset_iff.mpr ⟨hname, hbuffer⟩

/-! ### Layers -/

/-- What a scene does to the entries of a code area: the code is there, and is the one from before,
or empty if there was none. -/
structure Prepares (level : Path) (t t' : Tree) : Prop where
  written : Tree.SameBeside level ownNames t t'
  code : ∃ b, t'.resolve (buffer level).path = some (.buffer b) ∧
    (t.resolve (buffer level).path).or (some (.buffer {})) = some (.buffer b)

theorem resolve_buffer_of_side (hside : Tree.SameBeside level sideNames t t') :
    t'.resolve (buffer level).path = t.resolve (buffer level).path :=
  hside.resolve_child fun hname => hname.2 rfl

theorem Prepares.of_side (hside : Tree.SameBeside level sideNames t t')
    (hprepares : Prepares level t' t'') : Prepares level t t'' := by
  refine ⟨(hside.mono fun _ hname => hname.1).trans hprepares.written, ?_⟩
  rw [← resolve_buffer_of_side hside]
  exact hprepares.code

theorem Prepares.trans_side (hprepares : Prepares level t t')
    (hside : Tree.SameBeside level sideNames t' t'') : Prepares level t t'' := by
  refine ⟨hprepares.written.trans (hside.mono fun _ hname => hname.1), ?_⟩
  rw [resolve_buffer_of_side hside]
  exact hprepares.code

variable {α β : Type} [Storable α] {Q : Tree → β → Tree → Prop}

/-- Going on with a variable besides the code, when it makes no difference to have written it. -/
theorem stateAt_side_bind (name : Name)
    (hname : name ≠ componentName ∧ name ≠ bufferName)
    (hQ : ∀ t₀ t b t', Tree.SameBeside level sideNames t₀ t → Q t b t' → Q t₀ b t')
    {initial : α} {f : Var α → Program β} (hf : (f ⟨level.child name⟩).Ends hook Q) :
    (stateAt level name initial >>= f).Ends hook Q := by
  refine Ends.stateAt_bind (hf.mono fun t b t' hb t₀ hsame _ => ?_)
  exact hQ _ _ _ _ (hsame.mono (singleton_subset_sideNames hname.1 hname.2)) hb

theorem core_ends : (core level).Ends hook fun t scene t' =>
    scene.handler = coreHandler (buffer level) ∧ Prepares level t t' := by
  have hside (t₀ t : Tree) (scene : Scene) (t' : Tree)
      (hsame : Tree.SameBeside level sideNames t₀ t)
      (hscene : scene.handler = coreHandler (buffer level) ∧ Prepares level t t') :
      scene.handler = coreHandler (buffer level) ∧ Prepares level t₀ t' :=
    ⟨hscene.1, .of_side hsame hscene.2⟩
  refine stateAt_side_bind promptName (by decide) hside ?_
  refine stateAt_side_bind rightPromptName (by decide) hside ?_
  refine Ends.stateAt_bind ?_
  -- from here on the code is there, and is only read
  let Reads (t : Tree) (scene : Scene) (t' : Tree) : Prop :=
    scene.handler = coreHandler (buffer level) ∧ Tree.SameBeside level sideNames t t' ∧
      ∃ b, t.resolve (buffer level).path = some (.buffer b)
  have hreads (t₀ t : Tree) (scene : Scene) (t' : Tree)
      (hsame : Tree.SameBeside level sideNames t₀ t) (hscene : Reads t scene t') :
      Reads t₀ scene t' := by
    refine ⟨hscene.1, hsame.trans hscene.2.1, ?_⟩
    rw [← resolve_buffer_of_side hsame]
    exact hscene.2.2
  refine Ends.mono (Q := Reads) ?_ fun t scene t' hscene t₀ hsame hvalue => ?_
  · refine stateAt_side_bind pendingName (by decide) hreads ?_
    refine stateAt_side_bind highlighterName (by decide) hreads ?_
    refine (Ends.get_value _).bind fun b => ?_
    refine (Ends.get _).reads_bind fun overlay => (Ends.get _).reads_bind fun highlighter => ?_
    refine (Ends.ofExcept _).reads_bind fun shown => ?_
    refine (Ends.get _).reads_bind fun prompt => (Ends.get _).reads_bind fun rightPrompt => ?_
    refine .pure fun t t₀ hvalue => ?_
    exact ⟨rfl, hvalue.1 ▸ .refl level _ t, b, hvalue.2⟩
  · obtain ⟨hhandler, hside, b, hb⟩ := hscene
    have hcode : Prepares level t₀ t := by
      refine ⟨hsame.mono (singleton_subset_ownNames (by decide)), b, hb, ?_⟩
      exact hvalue.symm.trans hb
    exact ⟨hhandler, hcode.trans_side hside⟩

/-- **A scene of a code area** leaves the code as it is, if there is one, and everything that is no
entry of the code area. -/
theorem scene_ends : (codeArea level).Ends hook fun t scene t' =>
    scene.handler = handler level ∧ Prepares level t t' := by
  have hside (scene₀ : Scene) (t₀ t : Tree) (scene : Scene) (t' : Tree)
      (hsame : Tree.SameBeside level sideNames t₀ t)
      (hscene : scene = scene₀ ∧ Tree.SameBeside level sideNames t t') :
      scene = scene₀ ∧ Tree.SameBeside level sideNames t₀ t' :=
    ⟨hscene.1, hsame.trans hscene.2⟩
  have hlayers : (withAbbreviations level).Ends hook fun t scene t' =>
      scene.handler = typingHandler level ∧ Prepares level t t' := by
    refine core_ends.bind fun scene => ?_
    let scene' : Scene := { scene with
      handler := abbreviationHandler (buffer level) (tables level) scene.handler }
    refine Ends.mono (Q := fun t scene t' =>
      scene = scene' ∧ Tree.SameBeside level sideNames t t') ?_ ?_
    · refine stateAt_side_bind simpleName (by decide) (hside scene') ?_
      refine stateAt_side_bind commandName (by decide) (hside scene') ?_
      refine stateAt_side_bind smallWordName (by decide) (hside scene') ?_
      refine stateAt_side_bind streakName (by decide) (hside scene') ?_
      exact .pure fun t => ⟨rfl, .refl level _ t⟩
    · rintro t₁ _ t' ⟨rfl, hrest⟩ t ⟨hhandler, hprepares⟩
      refine ⟨?_, hprepares.trans_side hrest⟩
      rw [typingHandler, ← hhandler]
  refine hlayers.bind fun scene => ?_
  let scene' : Scene := { scene with
    handler := withBinding level tag (pasteHandler (buffer level) (pastes level) scene.handler) }
  refine Ends.mono (Q := fun t scene t' =>
    scene = scene' ∧ Tree.SameBeside level sideNames t t') ?_ ?_
  · refine stateAt_side_bind pastingName (by decide) (hside scene') ?_
    refine stateAt_side_bind pastedName (by decide) (hside scene') ?_
    refine stateAt_side_bind quotePasteName (by decide) (hside scene') ?_
    exact .pure fun t => ⟨rfl, .refl level _ t⟩
  · rintro t₁ _ t' ⟨rfl, hrest⟩ t ⟨hhandler, hprepares⟩
    refine ⟨?_, hprepares.trans_side hrest⟩
    rw [handler, layeredHandler, ← hhandler]

end CodeArea

namespace ListBox

/-- Does the event move the selection? -/
def moves (event : Event) : Bool := event.isBare .up || event.isBare .down

/-- **A scene of a list box** leaves the items and the selection as they are, if they are there. -/
theorem scene_ends : (listBox level).Ends hook fun t scene t' =>
    (t.resolve (items level).path).isSome → (t.resolve (selected level).path).isSome →
      scene.handler = withBinding level tag (handler (items level) (selected level)) ∧
        Tree.SameBeside level {submitName} t t' := by
  intro s s' scene hrun hitems hselected
  obtain ⟨_, s₁, hrun₁, hrun⟩ := Program.exists_of_run_bind_eq_ok hrun
  rw [run_stateAt_of_isSome hitems] at hrun₁
  cases hrun₁
  obtain ⟨_, s₂, hrun₂, hrun⟩ := Program.exists_of_run_bind_eq_ok hrun
  rw [run_stateAt_of_isSome hselected] at hrun₂
  cases hrun₂
  refine Ends.stateAt_bind (R := fun t (scene : Scene) t' =>
    scene.handler = withBinding level tag (handler (items level) (selected level)) ∧
      Tree.SameBeside level {submitName} t t') ?_ hrun
  refine (Ends.get _).reads_bind fun l => ?_
  cases l with
  | none => exact .pure fun t t₀ hsame _ => ⟨rfl, hsame⟩
  | some l => exact (Ends.get _).reads_bind fun i => .pure fun t t₀ hsame _ => ⟨rfl, hsame⟩

end ListBox

end TerminalUI
