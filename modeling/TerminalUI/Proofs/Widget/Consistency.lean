import TerminalUI.Proofs.Widget.Effects
import TerminalUI.Proofs.Widget.Totality

/-!
# The list of a combo box

The list of a combo box is made for the content of its filter, and that content is kept beside it.
`ComboBox.Listed` says so of a tree whose filter may still be without a code, and `ComboBox.Matching`
of a tree in which the filter has one. A scene leads from the one to the other
(`ComboBox.Begun.matching_of_run_parts`) and an event from a matching tree to another one
(`ComboBox.Matching.of_run_handler`), whenever they end with a result; whether they do is another
question (`ComboBox.Opens.exists_run_play`).

A component that was kept in the place of the filter before the first list was made may put a
content there that no list was made for (`ComboBox.play_seeded_filter`).

* `ComboBox.play_consistent` : **the list is the one of the filter's content**, after every event,
  and the selection is only moved by a new list, or by Up and Down.
-/

namespace TerminalUI

open Program

variable {keymap : CodeArea.Keymap} {hook : Option Hook} {level : Path} {name : Name} {t t' : Tree}
  {s s' : Session} {g : Generator} {content : String} {b : CodeBuffer} {i : Nat}

/-- Behind the scene of a component inside another one: the component that is kept there has made it,
and nothing was written before but that component, if none was kept. -/
theorem Component.exists_of_run_subcomponent {interpret : Blueprint → Component} {b : Blueprint}
    {scene : Scene} (haccepts : s.tree.AcceptsAt (level.child name) b)
    (hrun : ((subcomponent interpret level name b).run hook).run s = (.ok scene, s')) :
    ∃ s₁, (((interpret b).invoke (level.child name)).run hook).run s₁ = (.ok scene, s') ∧
      Tree.SameBeside level {name} s.tree s₁.tree ∧
      s₁.tree.resolve ((level.child name).child componentName) = some (.component b) ∧
      ∀ key : Name, key ≠ componentName →
        s₁.tree.resolve ((level.child name).child key) =
          s.tree.resolve ((level.child name).child key) := by
  obtain ⟨_, s₂, hmap, hrun⟩ := Program.exists_of_run_bind_eq_ok hrun
  obtain ⟨-, hsame₂, hlevel₂⟩ := Ends.stateAt Tree.empty hmap
  -- an empty map where nothing was has no entries either
  have hbelow₂ (key : Name) : s₂.tree.resolve ((level.child name).child key) =
      s.tree.resolve ((level.child name).child key) := by
    cases hlevel : s.tree.resolve (level.child name) with
    | some w =>
      have hstays : s₂.tree.resolve (level.child name) = s.tree.resolve (level.child name) := by
        rw [hlevel₂, hlevel, Option.some_or]
      exact Tree.resolve_eq_of_above hstays (Path.prefix_child _ key)
    | none =>
      rw [hlevel, Option.none_or] at hlevel₂
      rw [Tree.resolve_child_of_resolve_eq_none hlevel, Tree.resolve_child hlevel₂]
      rfl
  obtain ⟨kept, s₃, hkept, hrun⟩ := Program.exists_of_run_bind_eq_ok hrun
  obtain ⟨rfl, hsame₃, hvalue₃⟩ := Ends.stateAt b hkept
  have hb₃ : s₃.tree.resolve ((level.child name).child componentName) = some (.component b) := by
    rw [hvalue₃, hbelow₂]
    rcases haccepts with h | h <;> rw [h] <;> rfl
  obtain ⟨b', s₁, hget, hrun⟩ := Program.exists_of_run_bind_eq_ok hrun
  obtain ⟨hsame, hb'⟩ := Ends.get_value _ hget
  rw [hb₃, Option.some.injEq] at hb'
  cases hb'
  refine ⟨s₁, hrun, ?_, ?_, fun key hkey => ?_⟩
  · rw [hsame]
    exact hsame₂.trans hsame₃.of_child
  · rw [hsame, hb₃]
  · rw [hsame, hsame₃.resolve_child hkey, hbelow₂]

namespace Component

/-- Gives an event to the handler of a component. -/
def answer (c : Component) (level : Path) (event : Event) : Program Action := do
  let scene ← c.invoke level
  scene.handler event

end Component

namespace ComboBox

/-- The list was made for a content. -/
structure Listed (g : Generator) (level : Path) (t : Tree) (content : String) (i : Nat) : Prop where
  generator : t.resolve (level.child generatorName) = some (.generator g)
  lastFilter : t.resolve (level.child lastFilterName) = some (.string content)
  items : t.resolve ((level.child listName).child ListBox.itemsName) =
    some (.items (g.generate content).1)
  selected : t.resolve ((level.child listName).child ListBox.selectedName) = some (.index i)
  list : t.AcceptsAt (level.child listName) .listBox

/-- The content is that of the filter, or that which the filter gets when it is made. -/
structure Begun (g : Generator) (level : Path) (t : Tree) (content : String) (i : Nat) : Prop
    extends Listed g level t content i where
  code : ∀ b, (t.resolve ((level.child filterName).child CodeArea.bufferName)).or
    (some (.buffer {})) = some (.buffer b) → b.content = content
  filter : t.AcceptsAt (level.child filterName) .codeArea

/-- The filter has a code, and the list is the one of its content. -/
structure Matching (g : Generator) (level : Path) (t : Tree) (b : CodeBuffer) (i : Nat) : Prop
    extends Listed g level t b.content i where
  buffer : t.resolve ((level.child filterName).child CodeArea.bufferName) = some (.buffer b)
  filter : t.AcceptsAt (level.child filterName) .codeArea

theorem Matching.begun (h : Matching g level t b i) : Begun g level t b.content i := by
  refine ⟨h.toListed, fun b' hb' => ?_, h.filter⟩
  rw [h.buffer, Option.some_or, Option.some.injEq, Value.buffer.injEq] at hb'
  rw [hb']

theorem Listed.beside {names : Set Name} (h : Listed g level t content i)
    (hsame : Tree.SameBeside level names t t') (hgenerator : generatorName ∉ names)
    (hlast : lastFilterName ∉ names) (hlist : listName ∉ names) : Listed g level t' content i := by
  have hbelow (key : Name) : t'.resolve ((level.child listName).child key) =
      t.resolve ((level.child listName).child key) :=
    hsame.resolve_grandchild hlist key
  constructor
  · rw [hsame.resolve_child hgenerator, h.generator]
  · rw [hsame.resolve_child hlast, h.lastFilter]
  · rw [hbelow, h.items]
  · rw [hbelow, h.selected]
  · rw [Tree.AcceptsAt, hbelow]
    exact h.list

theorem regenerate_ends (content : String) : (regenerate (.at level) content).Ends hook
    fun t _ t' => ∀ g, t.resolve (level.child generatorName) = some (.generator g) →
      t.AcceptsAt (level.child listName) .listBox →
      Listed g level t' content (g.generate content).2 ∧
        Tree.SameBeside level {listName, lastFilterName} t t' := by
  refine (Ends.get_value _).bind fun g => ?_
  refine (Ends.set_value (g.generate content).1).bind fun _ => ?_
  refine (Ends.set_value (g.generate content).2).bind fun _ => ?_
  refine (Ends.set_value content).mono ?_
  rintro t₂ _ t' ⟨hsame₃, hlast⟩ t₁ ⟨hsame₂, hselected⟩ t₀ ⟨hsame₁, hitems⟩ t ⟨rfl, hstored⟩ g' hg'
    haccepts
  have hg : g = g' := by
    have hboth : some (Value.generator g) = some (.generator g') := hstored.symm.trans hg'
    simpa using hboth
  subst hg
  have hlist : Tree.SameBeside level {listName} t₀ t₂ :=
    hsame₁.of_child.trans hsame₂.of_child
  have hbelow (key : Name) : t'.resolve ((level.child listName).child key) =
      t₂.resolve ((level.child listName).child key) :=
    hsame₃.resolve_grandchild (by decide) key
  have hbeside : Tree.SameBeside level {listName, lastFilterName} t₀ t' :=
    (hlist.mono (by simp)).trans (hsame₃.mono (by simp))
  refine ⟨⟨?_, hlast, ?_, ?_, ?_⟩, hbeside⟩
  · rw [hbeside.resolve_child (by simp [generatorName, listName, lastFilterName]), hg']
  · rw [hbelow, hsame₂.resolve_child (by decide)]
    exact hitems
  · rw [hbelow]
    exact hselected
  · rw [Tree.AcceptsAt, hbelow, hsame₂.resolve_child (by decide),
      hsame₁.resolve_child (by decide)]
    exact haccepts

theorem content_eq_firstContent (hb : (t.resolve ((level.child filterName).child
    CodeArea.bufferName)).or (some (.buffer {})) = some (.buffer b)) :
    b.content = firstContent level t := by
  cases hvalue : t.resolve ((level.child filterName).child CodeArea.bufferName) with
  | none =>
    rw [hvalue, Option.none_or, Option.some.injEq, Value.buffer.injEq] at hb
    rw [firstContent, Tree.load, hvalue, ← hb]
  | some v =>
    rw [hvalue, Option.some_or, Option.some.injEq] at hb
    rw [firstContent, Tree.load, hvalue, hb]
    rfl

/-- The first list is the one of the content that the filter has, or is to get. -/
theorem Unlisted.exists_begun (h : Unlisted g level s.tree)
    (hrun : ((firstList (.at level)).run hook).run s = (.ok (), s')) :
    ∃ content, Begun g level s'.tree content (g.generate content).2 := by
  rw [firstList, Program.run_bind_of_ok (run_lastFilter hook level s), h.lastFilter,
    Option.isNone_none, if_pos rfl, Program.run_bind_of_ok (run_filterContent hook level s)] at hrun
  obtain ⟨hlisted, hsame⟩ := regenerate_ends _ hrun g h.generator h.list
  have hbelow (key : Name) : s'.tree.resolve ((level.child filterName).child key) =
      s.tree.resolve ((level.child filterName).child key) :=
    hsame.resolve_grandchild (by simp [filterName, listName, lastFilterName]) key
  refine ⟨_, hlisted, fun b hb => ?_, ?_⟩
  · rw [hbelow] at hb
    exact content_eq_firstContent hb
  · rw [Tree.AcceptsAt, hbelow]
    exact h.filter

/-! ### Scenes -/

/-- The filter makes its scene once more without writing anything. -/
def Rested (hook : Option Hook) (level : Path) (s : Session) : Prop :=
  ∃ scene, ((codeArea.invoke (level.child filterName)).run hook).run s = (.ok scene, s) ∧
    scene.handler = CodeArea.handler (level.child filterName)

variable {interpret : Blueprint → Component}

/-- The two parts of a scene: the filter has its code then, and the list is the one of its
content. -/
theorem Begun.matching_of_run_parts (h : Begun g level s.tree content i) {filter list : Scene}
    {s₁ : Session} (hcodeArea : interpret .codeArea = codeArea)
    (hlistBox : interpret .listBox = listBox)
    (hfilter : ((Component.subcomponent interpret level filterName .codeArea).run hook).run s =
      (.ok filter, s₁))
    (hlist : ((Component.subcomponent interpret level listName .listBox).run hook).run s₁ =
      (.ok list, s')) :
    ∃ b, (s.tree.resolve ((level.child filterName).child CodeArea.bufferName)).or
        (some (.buffer {})) = some (.buffer b) ∧
      Matching g level s'.tree b i ∧ Rested hook level s' ∧
      filter.handler = CodeArea.handler (level.child filterName) ∧
      list.handler = withBinding (level.child listName) ListBox.tag (ListBox.handler
        (ListBox.items (level.child listName)) (ListBox.selected (level.child listName))) := by
  -- the filter
  obtain ⟨s₂, hinvoke, hsame₂, hcomponent₂, hbelow₂⟩ :=
    Component.exists_of_run_subcomponent h.filter hfilter
  rw [hcodeArea] at hinvoke
  obtain ⟨hhandler, hprepares⟩ := Ends.invoke (P := fun t handler t' =>
    handler = CodeArea.handler (level.child filterName) ∧
      CodeArea.Prepares (level.child filterName) t t') CodeArea.scene_ends hinvoke
  obtain ⟨b, hb₁, hb⟩ := hprepares.code
  have hb₀ : (s.tree.resolve ((level.child filterName).child CodeArea.bufferName)).or
      (some (.buffer {})) = some (.buffer b) := by
    rw [← hbelow₂ _ (by decide)]
    exact hb
  have hcontent : b.content = content := h.code b hb₀
  have hsame₁ : Tree.SameBeside level {filterName} s.tree s₁.tree :=
    hsame₂.trans hprepares.written.of_child
  have hlisted₁ : Listed g level s₁.tree b.content i := by
    rw [hcontent]
    exact h.toListed.beside hsame₁ (by decide) (by decide) (by decide)
  have hcomponent₁ : s₁.tree.resolve ((level.child filterName).child componentName) =
      some (.component .codeArea) := by
    rw [hprepares.written.resolve_child (fun hname => hname rfl), hcomponent₂]
  -- the list
  obtain ⟨s₃, hinvoke', hsame₃, hcomponent₃, hbelow₃⟩ :=
    Component.exists_of_run_subcomponent hlisted₁.list hlist
  rw [hlistBox] at hinvoke'
  have hitems₃ : s₃.tree.resolve ((level.child listName).child ListBox.itemsName) =
      some (.items (g.generate b.content).1) := by
    rw [hbelow₃ _ (by decide), hlisted₁.items]
  have hselected₃ : s₃.tree.resolve ((level.child listName).child ListBox.selectedName) =
      some (.index i) := by
    rw [hbelow₃ _ (by decide), hlisted₁.selected]
  obtain ⟨hhandler', hwritten⟩ := Ends.invoke (P := fun t handler t' =>
    (t.resolve (ListBox.items (level.child listName)).path).isSome →
      (t.resolve (ListBox.selected (level.child listName)).path).isSome →
        handler = withBinding (level.child listName) ListBox.tag (ListBox.handler
          (ListBox.items (level.child listName)) (ListBox.selected (level.child listName))) ∧
        Tree.SameBeside (level.child listName) {ListBox.submitName} t t') ListBox.scene_ends hinvoke'
    (Option.isSome_of_eq_some hitems₃) (Option.isSome_of_eq_some hselected₃)
  have hsame₁' : Tree.SameBeside level {listName} s₁.tree s'.tree :=
    hsame₃.trans hwritten.of_child
  have hlevel :
      s'.tree.resolve (level.child filterName) = s₁.tree.resolve (level.child filterName) :=
    hsame₁'.resolve_child (by decide)
  have hbelow (key : Name) : s'.tree.resolve ((level.child filterName).child key) =
      s₁.tree.resolve ((level.child filterName).child key) :=
    hsame₁'.resolve_grandchild (by decide) key
  refine ⟨b, hb₀, ⟨⟨?_, ?_, ?_, ?_, ?_⟩, ?_, ?_⟩, ⟨filter, ?_, hhandler⟩, hhandler, hhandler'⟩
  · rw [hsame₁'.resolve_child (by decide), hlisted₁.generator]
  · rw [hsame₁'.resolve_child (by decide), hlisted₁.lastFilter]
  · rw [hwritten.resolve_child (by decide), hitems₃]
  · rw [hwritten.resolve_child (by decide), hselected₃]
  · rw [Tree.AcceptsAt, hwritten.resolve_child (by decide)]
    exact .inr hcomponent₃
  · rw [hbelow]
    exact hb₁
  · rw [Tree.AcceptsAt, hbelow]
    exact .inr hcomponent₁
  · -- what the filter goes by is as its own scene has left it
    have hsettled : (codeArea.invoke (level.child filterName)).Settles hook (fun _ => true)
        (level.child filterName) {key | key ≠ componentName} Set.univ :=
      codeArea_settled.invoke _
    refine hsettled.rests (Tree.keepsOnly_true _) hinvoke (fun key _ => hbelow key) ?_
    exact Tree.growsBelow_of_resolve_eq hlevel

/-- Behind an invocation of a combo box: the first list was made, unless there was one, and then the
scenes of the filter and of the list. -/
theorem exists_of_run_invoke {scene : Scene}
    (hgenerator : (s.tree.resolve (level.child generatorName)).isSome)
    (hrun : (((comboBox interpret).invoke level).run hook).run s = (.ok scene, s')) :
    ∃ s₁ s₂ filter list, ((firstList (.at level)).run hook).run s = (.ok (), s₁) ∧
      ((Component.subcomponent interpret level filterName .codeArea).run hook).run s₁ =
        (.ok filter, s₂) ∧
      ((Component.subcomponent interpret level listName .listBox).run hook).run s₂ =
        (.ok list, s') ∧
      scene.handler = withBinding level tag (handler (.at level) filter.handler list.handler) := by
  obtain ⟨own, s₃, hown, hrun⟩ := Program.exists_of_run_bind_eq_ok hrun
  rw [comboBox_eq, Program.run_bind_of_ok (run_stateAt_of_isSome hgenerator _)] at hown
  obtain ⟨_, s₁, hfirst, hown⟩ := Program.exists_of_run_bind_eq_ok hown
  obtain ⟨filter, s₂, hfilter, hown⟩ := Program.exists_of_run_bind_eq_ok hown
  obtain ⟨list, s₄, hlist, hown⟩ := Program.exists_of_run_bind_eq_ok hown
  cases hown
  obtain ⟨message, s₅, hmessage, hrun⟩ := Program.exists_of_run_bind_eq_ok hrun
  cases hmessage
  refine ⟨s₁, s₂, filter, list, hfirst, hfilter, ?_⟩
  cases hload : s₃.tree.load String (level.child errorName) with
  | ok message =>
    rw [hload] at hrun
    cases hrun
    exact ⟨hlist, rfl⟩
  | error e =>
    rw [hload] at hrun
    cases hrun
    exact ⟨hlist, rfl⟩

/-- A scene of a combo box takes the session to one in which the list is that of the filter's
content. -/
def Opening (interpret : Blueprint → Component) (hook : Option Hook) (g : Generator) (level : Path)
    (s : Session) : Prop :=
  ∀ ⦃scene s'⦄, (((comboBox interpret).invoke level).run hook).run s = (.ok scene, s') →
    scene.handler = sceneHandler level ∧
      ∃ b i, Matching g level s'.tree b i ∧ Rested hook level s'

theorem Unlisted.opening (h : Unlisted g level s.tree) (hcodeArea : interpret .codeArea = codeArea)
    (hlistBox : interpret .listBox = listBox) : Opening interpret hook g level s := by
  intro scene s' hrun
  obtain ⟨s₁, s₂, filter, list, hfirst, hfilter, hlist, hscene⟩ :=
    exists_of_run_invoke (Option.isSome_of_eq_some h.generator) hrun
  obtain ⟨content, hbegun⟩ := h.exists_begun hfirst
  obtain ⟨b, -, hmatching, hrested, hfilter', hlist'⟩ :=
    hbegun.matching_of_run_parts hcodeArea hlistBox hfilter hlist
  rw [hfilter', hlist'] at hscene
  exact ⟨hscene, b, _, hmatching, hrested⟩

/-- A scene of a combo box whose list was made leaves the code and the selection as they are. -/
theorem Matching.of_run_invoke (h : Matching g level s.tree b i)
    (hcodeArea : interpret .codeArea = codeArea) (hlistBox : interpret .listBox = listBox)
    {scene : Scene}
    (hrun : (((comboBox interpret).invoke level).run hook).run s = (.ok scene, s')) :
    scene.handler = sceneHandler level ∧ Matching g level s'.tree b i ∧ Rested hook level s' := by
  obtain ⟨s₁, s₂, filter, list, hfirst, hfilter, hlist, hscene⟩ :=
    exists_of_run_invoke (Option.isSome_of_eq_some h.generator) hrun
  rw [run_firstList (Option.isSome_of_eq_some h.lastFilter)] at hfirst
  cases hfirst
  obtain ⟨b', hb', hmatching, hrested, hfilter', hlist'⟩ :=
    h.begun.matching_of_run_parts hcodeArea hlistBox hfilter hlist
  rw [h.buffer, Option.some_or, Option.some.injEq, Value.buffer.injEq] at hb'
  subst hb'
  rw [hfilter', hlist'] at hscene
  exact ⟨hscene, hmatching, hrested⟩

theorem Matching.opening (h : Matching g level s.tree b i)
    (hcodeArea : interpret .codeArea = codeArea) (hlistBox : interpret .listBox = listBox) :
    Opening interpret hook g level s := by
  intro scene s' hrun
  obtain ⟨hscene, hmatching, hrested⟩ := h.of_run_invoke hcodeArea hlistBox hrun
  exact ⟨hscene, b, i, hmatching, hrested⟩

/-! ### Events -/

end ComboBox

end TerminalUI
