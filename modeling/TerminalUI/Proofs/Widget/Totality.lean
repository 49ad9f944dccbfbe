import TerminalUI.Proofs.Widget.Inner
import TerminalUI.Proofs.Widget.Location
import TerminalUI.Proofs.Widget.Settles

/-!
# A combo box goes on

From a tree with a generator, and with whatever a code area can go on from in the place of the
filter, a combo box makes its scenes and deals with every event, under every keymap. Nothing here
depends on what the entries of the list are, as long as they are there: a scene is made in two steps,
the first list, unless there was one, and then the filter and the list. `ComboBox.Drafted` says what
holds in between, `ComboBox.Ready` what holds afterwards, with the state of the filter, and every
event leads from one such tree to another one (`ComboBox.Ready.exists_run_handler`).

* `ComboBox.Opens.exists_run_play` : **over any events, a combo box ends with a result**.
-/

namespace TerminalUI

open Program

variable {keymap : CodeArea.Keymap} {hook : Option Hook} {level : Path} {t t' : Tree}
  {journal : List JournalEntry} {g : Generator} {s s' : CodeArea.State} {i : Nat}

namespace Component

variable {c : Component} {session session' session'' : Session} {scene : Scene} {event : Event}
  {action : Action} {actions : List Action} {views : List View} {events : List Event}

theorem run_play_nil (hinvoke : ((c.invoke level).run hook).run session = (.ok scene, session')) :
    ((c.play level []).run hook).run session = (.ok ([], [scene.view]), session') := by
  rw [play, Program.run_bind_of_ok hinvoke]
  rfl

theorem run_play_cons (hinvoke : ((c.invoke level).run hook).run session = (.ok scene, session'))
    (hhandler : ((scene.handler event).run hook).run session' = (.ok action, session''))
    {last : Session}
    (hrest : ((c.play level events).run hook).run session'' = (.ok (actions, views), last)) :
    ((c.play level (event :: events)).run hook).run session =
      (.ok (action :: actions, scene.view :: views), last) := by
  rw [play, Program.run_bind_of_ok hinvoke, Program.run_bind_of_ok hhandler,
    Program.run_bind_of_ok hrest]
  rfl

end Component

namespace ComboBox

/-- A tree with a generator in which no list was made yet. A component that is kept in the place of
the filter is the code area, and one in the place of the list is the list box. -/
structure Unlisted (g : Generator) (level : Path) (t : Tree) : Prop where
  generator : t.resolve (level.child generatorName) = some (.generator g)
  lastFilter : t.resolve (level.child lastFilterName) = none
  filter : t.AcceptsAt (level.child filterName) .codeArea
  list : t.AcceptsAt (level.child listName) .listBox

/-- Besides, a code area can go on from what the tree holds for the filter, and a list box can be
made in the place of the list. -/
structure Fresh (g : Generator) (level : Path) (t : Tree) (s : CodeArea.State) : Prop
    extends Unlisted g level t where
  code : ∃ f, t.HasMap (level.child filterName) f ∧ CodeArea.Configured f s
  room : ∃ l, t.HasMap (level.child listName) l

/-- The entries of a combo box are there, and those of a list box in the place of its list. -/
structure HasEntries (level : Path) (t : Tree) : Prop where
  generator : ∃ g, t.resolve (level.child generatorName) = some (.generator g)
  lastFilter : ∃ content, t.resolve (level.child lastFilterName) = some (.string content)
  list : ∃ m l i, t.resolve (level.child listName) = some (.map m) ∧ ListBox.Holds m l i ∧
    m.Accepts .listBox

/-- The first list was made, and a code area can go on from what the tree holds for the filter. -/
structure Drafted (level : Path) (t : Tree) (s : CodeArea.State) : Prop
    extends HasEntries level t where
  filter : ∃ f, t.HasMap (level.child filterName) f ∧ CodeArea.Configured f s ∧
    f.Accepts .codeArea

/-- The list and the filter are both there. -/
structure Ready (level : Path) (t : Tree) (s : CodeArea.State) : Prop
    extends HasEntries level t where
  filter : ∃ f, t.resolve (level.child filterName) = some (.map f) ∧ CodeArea.Holds f s ∧
    f.Accepts .codeArea

theorem Ready.drafted (h : Ready level t s) : Drafted level t s := by
  obtain ⟨f, hf, hholds, haccepts⟩ := h.filter
  exact ⟨h.toHasEntries, f, .inl hf, hholds.configured, haccepts⟩

/-- What is no entry of a combo box makes no difference. -/
theorem HasEntries.beside {names : Set Name} (h : HasEntries level t)
    (hsame : Tree.SameBeside level names t t') (hgenerator : generatorName ∉ names)
    (hlast : lastFilterName ∉ names) (hlist : listName ∉ names) : HasEntries level t' := by
  constructor
  · rw [hsame.resolve_child hgenerator]
    exact h.generator
  · rw [hsame.resolve_child hlast]
    exact h.lastFilter
  · rw [hsame.resolve_child hlist]
    exact h.list

/-! ### Making a list -/

variable (hook) (journal) in
/-- Making the list for a content, whether there is a map for the list box yet or not. -/
theorem exists_run_regenerate {l : Tree}
    (hgenerator : t.resolve (level.child generatorName) = some (.generator g))
    (hlist : t.HasMap (level.child listName) l) (haccepts : l.Accepts .listBox) (content : String) :
    ∃ t', ((regenerate (.at level) content).run hook).run ⟨t, journal⟩ = (.ok (), ⟨t', journal⟩) ∧
      HasEntries level t' ∧ Tree.SameBeside level {listName, lastFilterName} t t' := by
  obtain ⟨m, hm⟩ := Tree.exists_map_of_child hgenerator
  have hget : ((Var.get (Vars.at level).generator).run hook).run ⟨t, journal⟩ =
      (.ok g, ⟨t, journal⟩) := by
    have hload : t.load Generator (level.child generatorName) = .ok g := by
      rw [Tree.load, hgenerator]
      rfl
    change ((Var.get ⟨level.child generatorName⟩).run hook).run ⟨t, journal⟩ = _
    rw [Var.run_get, hload]
  -- the entries of the list box; the first of them makes the map, if there is none
  obtain ⟨t₁, hitems, hitems₁, hsame₁⟩ :=
    Var.exists_run_set hook journal ListBox.itemsName hm hlist (g.generate content).1
  obtain ⟨l₁, hl₁⟩ := Tree.exists_map_of_child hitems₁
  have hselected : Program.Leads hook (level.child listName) (Var.set (Vars.at level).selected
      (g.generate content).2) l₁ ()
      (l₁.insert ListBox.selectedName (.index (g.generate content).2)) := Var.leads_set _
  obtain ⟨t₂, hselected, hl₂, hsame₂⟩ := hselected.exists_run journal hl₁
  -- the content that the list was made for
  have hbeside₂ : Tree.SameBeside level {listName} t t₂ :=
    hsame₁.of_child.trans hsame₂.beside
  obtain ⟨m₂, hm₂⟩ := Tree.exists_map_of_child hl₂
  have hlast : Program.Leads hook level (Var.set (Vars.at level).lastFilter content) m₂ ()
      (m₂.insert lastFilterName (.string content)) := Var.leads_set _
  obtain ⟨t₃, hlast, hm₃, hsame₃⟩ := hlast.exists_run journal hm₂
  have hbeside₃ : Tree.SameBeside level {lastFilterName} t₂ t₃ := by
    refine hsame₃.beside_of_get? hm₂ hm₃ fun key hkey => ?_
    exact Tree.get?_insert_of_ne (Name.text_ne hkey) _
  have hbeside : Tree.SameBeside level {listName, lastFilterName} t t₃ :=
    (hbeside₂.mono (by simp)).trans (hbeside₃.mono (by simp))
  have haccepts₂ : (l₁.insert ListBox.selectedName (.index (g.generate content).2)).Accepts
      .listBox := by
    rw [Tree.Accepts, Tree.get?_insert_of_ne (by decide), ← Tree.resolve_child hl₁,
      hsame₁.resolve_child (by decide), hlist.resolve_child]
    exact haccepts
  refine ⟨t₃, ?_, ⟨⟨g, ?_⟩, ⟨content, ?_⟩, _, (g.generate content).1, _, ?_,
    ⟨?_, Tree.get?_insert_self _ _ _⟩, haccepts₂⟩, hbeside⟩
  · rw [regenerate, Program.run_bind_of_ok hget]
    exact (Program.run_bind_of_ok hitems _).trans
      ((Program.run_bind_of_ok hselected _).trans hlast)
  · rw [hbeside.resolve_child (by simp [generatorName, listName, lastFilterName]), hgenerator]
  · rw [Tree.resolve_child hm₃, Tree.get?_insert_self]
  · rw [hbeside₃.resolve_child (by decide), hl₂]
  · rw [Tree.get?_insert_of_ne (by decide), ← Tree.resolve_child hl₁, hitems₁]
    rfl

/-- The content that the first list is made for: that of the filter, if it has one. -/
def firstContent (level : Path) (t : Tree) : String :=
  match t.load CodeBuffer ((level.child filterName).child CodeArea.bufferName) with
  | .ok b => b.content
  | .error _ => ""

variable (hook) (level) in
theorem run_filterContent (session : Session) :
    ((filterContent (.at level)).run hook).run session =
      (.ok (firstContent level session.tree), session) := by
  have htryGet : (((Vars.at level).buffer.tryGet).run hook).run session =
      (.ok (session.tree.load CodeBuffer (Vars.at level).buffer.path), session) := rfl
  rw [filterContent, Program.run_bind_of_ok htryGet, firstContent]
  change ((match session.tree.load CodeBuffer
      ((level.child filterName).child CodeArea.bufferName) with
    | .ok b => (pure b.content : Program String)
    | .error _ => pure "").run hook).run session = _
  cases session.tree.load CodeBuffer ((level.child filterName).child CodeArea.bufferName) <;> rfl

variable (hook) (journal) in
/-- The first list is made. -/
theorem Fresh.exists_run_firstList (h : Fresh g level t s) :
    ∃ t', ((firstList (.at level)).run hook).run ⟨t, journal⟩ = (.ok (), ⟨t', journal⟩) ∧
      Drafted level t' s := by
  obtain ⟨f, hf, hconfigured⟩ := h.code
  obtain ⟨l, hl⟩ := h.room
  obtain ⟨t', hrun, hentries, hsame⟩ := exists_run_regenerate hook journal h.generator hl
    (h.list.accepts hl) (firstContent level t)
  refine ⟨t', ?_, hentries, f, ?_, hconfigured, h.filter.accepts hf⟩
  · rw [firstList, Program.run_bind_of_ok (run_lastFilter hook level _), h.lastFilter,
      Option.isNone_none, if_pos rfl, Program.run_bind_of_ok (run_filterContent hook level _)]
    exact hrun
  · rw [Tree.HasMap, hsame.resolve_child (by simp [filterName, listName, lastFilterName])]
    exact hf

/-! ### Scenes -/

/-- The handler of a combo box, which is the same in every scene. -/
def sceneHandler (level : Path) : Handler :=
  withBinding level tag (handler (.at level) (CodeArea.handler (level.child filterName))
    (withBinding (level.child listName) ListBox.tag (ListBox.handler
      (ListBox.items (level.child listName)) (ListBox.selected (level.child listName)))))

variable {interpret : Blueprint → Component}

variable (hook) (journal) in
theorem Drafted.exists_run_filter (h : Drafted level t s) (hs : s.Showable)
    (hcodeArea : interpret .codeArea = codeArea) :
    ∃ view t', ((Component.subcomponent interpret level filterName .codeArea).run hook).run
        ⟨t, journal⟩ = (.ok ⟨view, CodeArea.handler (level.child filterName)⟩, ⟨t', journal⟩) ∧
      Ready level t' s := by
  obtain ⟨g, hgenerator⟩ := h.generator
  obtain ⟨m, hm⟩ := Tree.exists_map_of_child hgenerator
  obtain ⟨f, hf, hconfigured, haccepts⟩ := h.filter
  obtain ⟨code, tips, hcode⟩ := hs s.buffer.content
  have hconfigured' : CodeArea.Configured (f.withDefault componentName (.component .codeArea)) s :=
    hconfigured.withDefault (by decide) _
  have hinvoke : Program.Leads hook (level.child filterName)
      ((interpret .codeArea).invoke (level.child filterName)) _ _ _ :=
    hcodeArea ▸ CodeArea.leads_invoke hconfigured' hcode
  obtain ⟨t', hrun, hf', hsame⟩ :=
    Component.exists_run_subcomponent journal hm hf haccepts hinvoke
  refine ⟨_, t', hrun, h.beside hsame (by decide) (by decide) (by decide), _, hf', hconfigured', ?_⟩
  rw [Tree.Accepts, CodeArea.get?_initialized rfl rfl rfl]
  exact .inr haccepts.get?_withDefault

variable (hook) (journal) in
theorem Ready.exists_run_list (h : Ready level t s) (hlistBox : interpret .listBox = listBox) :
    ∃ view t', ((Component.subcomponent interpret level listName .listBox).run hook).run
        ⟨t, journal⟩ = (.ok ⟨view, withBinding (level.child listName) ListBox.tag (ListBox.handler
          (ListBox.items (level.child listName)) (ListBox.selected (level.child listName)))⟩,
          ⟨t', journal⟩) ∧
      Ready level t' s := by
  obtain ⟨g, hgenerator⟩ := h.generator
  obtain ⟨m, hm⟩ := Tree.exists_map_of_child hgenerator
  obtain ⟨m', l, i, hl, hholds, haccepts⟩ := h.list
  have hholds' : ListBox.Holds (m'.withDefault componentName (.component .listBox)) l i := by
    refine hholds.congr fun name hname => ?_
    rw [Tree.get?_withDefault, if_neg (by rcases hname with rfl | rfl <;> decide), Option.or_none]
  obtain ⟨view, hscene⟩ := ListBox.exists_leads_scene hook (level.child listName) hholds'
  obtain ⟨view', hinvoke⟩ := Component.exists_leads_invoke hscene
  rw [← hlistBox] at hinvoke
  obtain ⟨t', hrun, hl', hsame⟩ :=
    Component.exists_run_subcomponent journal hm (.inl hl) haccepts hinvoke
  refine ⟨view', t', hrun, ⟨⟨g, ?_⟩, ?_, _, l, i, hl', hholds'.congr fun name hname => ?_, ?_⟩, ?_⟩
  · rw [hsame.resolve_child (by decide), hgenerator]
  · rw [hsame.resolve_child (by decide)]
    exact h.lastFilter
  · rw [Tree.get?_withDefault, if_neg (by rcases hname with rfl | rfl <;> decide), Option.or_none]
  · rw [Tree.Accepts, Tree.get?_withDefault, if_neg (by decide), Option.or_none]
    exact .inr haccepts.get?_withDefault
  · rw [hsame.resolve_child (by decide)]
    exact h.filter

variable (interpret) in
/-- Making a scene of a combo box: the filter and the list are there afterwards. -/
theorem Drafted.exists_run_invoke {t₀ : Tree} (h : Drafted level t s) (hs : s.Showable)
    (hgenerator : (t₀.resolve (level.child generatorName)).isSome)
    (hfirst : ((firstList (.at level)).run hook).run ⟨t₀, journal⟩ = (.ok (), ⟨t, journal⟩))
    (hcodeArea : interpret .codeArea = codeArea) (hlistBox : interpret .listBox = listBox) :
    ∃ view t', (((comboBox interpret).invoke level).run hook).run ⟨t₀, journal⟩ =
        (.ok ⟨view, sceneHandler level⟩, ⟨t', journal⟩) ∧
      Ready level t' s := by
  obtain ⟨filterView, t₁, hfilter, h₁⟩ := h.exists_run_filter hook journal hs hcodeArea
  obtain ⟨listView, t₂, hlist, h₂⟩ := h₁.exists_run_list hook journal hlistBox
  have hgenerator' : ((stateAt level generatorName Generator.nothing).run hook).run ⟨t₀, journal⟩ =
      (.ok ⟨level.child generatorName⟩, ⟨t₀, journal⟩) := run_stateAt_of_isSome hgenerator _
  have hscene : ((comboBox interpret level).run hook).run ⟨t₀, journal⟩ =
      (.ok ⟨.rows [filterView, listView] 0, sceneHandler level⟩, ⟨t₂, journal⟩) := by
    rw [comboBox_eq, Program.run_bind_of_ok hgenerator', Program.run_bind_of_ok hfirst,
      Program.run_bind_of_ok hfilter, Program.run_bind_of_ok hlist]
    rfl
  rw [Component.invoke, Program.run_bind_of_ok hscene]
  have htryGet : ((Var.tryGet (Var.mk (α := String) (level.child errorName))).run hook).run
      ⟨t₂, journal⟩ = (.ok (t₂.load String (level.child errorName)), ⟨t₂, journal⟩) := rfl
  dsimp only
  rw [Program.run_bind_of_ok htryGet]
  cases t₂.load String (level.child errorName) with
  | ok message => exact ⟨_, t₂, rfl, h₂⟩
  | error e => exact ⟨_, t₂, rfl, h₂⟩

/-! ### Events -/

variable (journal) in
/-- An event that comes to the list. -/
theorem Ready.exists_run_listHandler (h : Ready level t s) (keymap : CodeArea.Keymap)
    (event : Event) :
    ∃ action t', ((withBinding (level.child listName) ListBox.tag (ListBox.handler
          (ListBox.items (level.child listName)) (ListBox.selected (level.child listName))) event).run
          keymap.hook).run ⟨t, journal⟩ = (.ok action, ⟨t', journal⟩) ∧
      Ready level t' s := by
  obtain ⟨m, l, i, hl, hholds, haccepts⟩ := h.list
  obtain ⟨action, i', m', hleads, hholds', hother⟩ :=
    ListBox.exists_leads_handler keymap.hook (level.child listName) hholds event
  obtain ⟨t₁, hrun, hl', hsame⟩ := hleads.exists_run journal hl
  obtain ⟨t₂, hbinding, hsame'⟩ :=
    keymap.exists_run_binding (show ListBox.tag ≠ CodeArea.tag by decide) hrun
  have hbeside : Tree.SameBeside level {listName} t t₂ :=
    hsame.beside.trans hsame'.of_child
  have hitems : t₂.resolve ((level.child listName).child ListBox.itemsName) = some (.items l) := by
    rw [hsame'.resolve_child (by decide), Tree.resolve_child hl', hholds'.items]
  obtain ⟨m₂, hl₂⟩ := Tree.exists_map_of_child hitems
  have hget {name : Name} (hne : name ≠ errorName) : m₂.get? name = m'.get? name := by
    rw [← Tree.resolve_child hl₂, ← Tree.resolve_child hl', hsame'.resolve_child hne]
  refine ⟨action, t₂, hbinding, ⟨?_, ?_, m₂, l, i', hl₂, hholds'.congr fun name hname => ?_, ?_⟩, ?_⟩
  · rw [hbeside.resolve_child (by decide)]
    exact h.generator
  · rw [hbeside.resolve_child (by decide)]
    exact h.lastFilter
  · rcases hname with rfl | rfl <;> exact hget (by decide)
  · rw [Tree.Accepts, hget (by decide), hother _ (by decide)]
    exact haccepts
  · rw [hbeside.resolve_child (by decide)]
    exact h.filter

variable (hook) (journal) in
/-- After an event that the filter has dealt with, the list is made anew if the content is another
one. -/
theorem Ready.exists_run_follow (h : Ready level t s) (action : Action) :
    ∃ t', ((do
        let content := (← (Vars.at level).buffer.get).content
        if content ≠ (← (Vars.at level).lastFilter.get) then regenerate (.at level) content
        return action : Program Action).run hook).run ⟨t, journal⟩ = (.ok action, ⟨t', journal⟩) ∧
      Ready level t' s := by
  obtain ⟨f, hf, hholds, haccepts⟩ := h.filter
  obtain ⟨last, hlast⟩ := h.lastFilter
  have hbuffer : (((Vars.at level).buffer.get).run hook).run ⟨t, journal⟩ =
      (.ok s.buffer, ⟨t, journal⟩) := by
    have hload : t.load CodeBuffer ((level.child filterName).child CodeArea.bufferName) =
        .ok s.buffer := Var.load_child hf hholds.buffer
    change ((Var.get ⟨(level.child filterName).child CodeArea.bufferName⟩).run hook).run
      ⟨t, journal⟩ = _
    rw [Var.run_get, hload]
  have hlastFilter : (((Vars.at level).lastFilter.get).run hook).run ⟨t, journal⟩ =
      (.ok last, ⟨t, journal⟩) := by
    have hload : t.load String (level.child lastFilterName) = .ok last := by
      rw [Tree.load, hlast]
      rfl
    change ((Var.get ⟨level.child lastFilterName⟩).run hook).run ⟨t, journal⟩ = _
    rw [Var.run_get, hload]
  rw [Program.run_bind_of_ok hbuffer]
  dsimp only
  rw [Program.run_bind_of_ok hlastFilter]
  by_cases hcontent : s.buffer.content = last
  · rw [if_neg (not_not.mpr hcontent)]
    exact ⟨t, rfl, h⟩
  · rw [if_pos hcontent]
    obtain ⟨g, hgenerator⟩ := h.generator
    obtain ⟨m, l, i, hl, -, hlist⟩ := h.list
    obtain ⟨t', hrun, hentries, hsame⟩ :=
      exists_run_regenerate hook journal hgenerator (.inl hl) hlist s.buffer.content
    refine ⟨t', ?_, hentries, f, ?_, hholds, haccepts⟩
    · rw [Program.run_bind_of_ok hrun]
      rfl
    · rw [hsame.resolve_child (by simp [filterName, listName, lastFilterName]), hf]

variable (journal) in
/-- **A combo box deals with every event**, and can go on. -/
theorem Ready.exists_run_handler (h : Ready level t s) (hvalid : s.buffer.Valid)
    (hs : s.Showable) (keymap : CodeArea.Keymap) (event : Event) :
    ∃ action s' t', ((sceneHandler level event).run keymap.hook).run ⟨t, journal⟩ =
        (.ok action, ⟨t', journal⟩) ∧
      Ready level t' s' ∧ s'.buffer.Valid ∧ s'.Showable := by
  obtain ⟨f, hf, hholds, haccepts⟩ := h.filter
  -- the filter comes first
  obtain ⟨action, s', f', hleads, hstep, hholds', hkeeps⟩ :=
    CodeArea.exists_leads_handler keymap hholds hvalid event
  obtain ⟨t₁, hfilter, hf', hsame⟩ := hleads.exists_run journal hf
  have hbeside := hsame.beside
  have haccepts' : f'.Accepts .codeArea := by
    rw [Tree.Accepts, hkeeps _ (by decide) (fun hname => absurd hname (by decide))]
    exact haccepts
  have h₁ : Ready level t₁ s' :=
    ⟨h.beside hbeside (by decide) (by decide) (by decide), f', hf', hholds', haccepts'⟩
  -- then the list, or the combo box itself
  obtain ⟨action', t₂, hrun, h₂⟩ : ∃ action' t₂,
      ((handler (.at level) (CodeArea.handler (level.child filterName))
        (withBinding (level.child listName) ListBox.tag (ListBox.handler
          (ListBox.items (level.child listName)) (ListBox.selected (level.child listName)))) event).run
          keymap.hook).run ⟨t, journal⟩ = (.ok action', ⟨t₂, journal⟩) ∧ Ready level t₂ s' := by
    rw [handler, Program.run_bind_of_ok hfilter]
    by_cases haction : action = .unused
    · rw [if_pos haction]
      exact h₁.exists_run_listHandler journal keymap event
    · rw [if_neg haction]
      obtain ⟨t₂, hrun, h₂⟩ := h₁.exists_run_follow keymap.hook journal action
      exact ⟨action, t₂, hrun, h₂⟩
  obtain ⟨t₃, hbinding, hsame₃⟩ :=
    keymap.exists_run_binding (show tag ≠ CodeArea.tag by decide) hrun
  have h₃ : Ready level t₃ s' := by
    refine ⟨h₂.beside hsame₃ (by decide) (by decide) (by decide), ?_⟩
    rw [hsame₃.resolve_child (by decide)]
    exact h₂.filter
  exact ⟨action', s', t₃, hbinding, h₃, hstep.valid hvalid, hstep.showable hs⟩

/-! ### Runs -/

/-- A combo box makes a scene of the tree, in which the filter is in a state that it can go on
from. -/
structure Opens (level : Path) (t : Tree) (s : CodeArea.State) : Prop where
  generator : (t.resolve (level.child generatorName)).isSome
  first : ∀ hook journal, ∃ t', ((firstList (.at level)).run hook).run ⟨t, journal⟩ =
    (.ok (), ⟨t', journal⟩) ∧ Drafted level t' s
  valid : s.buffer.Valid
  showable : s.Showable

theorem Ready.opens (h : Ready level t s) (hvalid : s.buffer.Valid) (hs : s.Showable) :
    Opens level t s := by
  obtain ⟨g, hgenerator⟩ := h.generator
  obtain ⟨content, hlast⟩ := h.lastFilter
  refine ⟨by rw [hgenerator, Option.isSome_some], fun _ _ => ⟨t, run_firstList ?_, h.drafted⟩,
    hvalid, hs⟩
  rw [hlast, Option.isSome_some]

theorem Fresh.opens (h : Fresh g level t s) (hvalid : s.buffer.Valid) (hs : s.Showable) :
    Opens level t s :=
  ⟨by rw [h.generator, Option.isSome_some], fun hook journal => h.exists_run_firstList hook journal,
    hvalid, hs⟩

/-- **Over any events, a combo box ends with a result.** -/
theorem Opens.exists_run_play (h : Opens level t s) (hcodeArea : interpret .codeArea = codeArea)
    (hlistBox : interpret .listBox = listBox) (keymap : CodeArea.Keymap)
    (journal : List JournalEntry) (events : List Event) :
    ∃ result s', (((comboBox interpret).play level events).run keymap.hook).run ⟨t, journal⟩ =
      (.ok result, s') := by
  induction events generalizing t s with
  | nil =>
    obtain ⟨t₁, hfirst, hdrafted⟩ := h.first keymap.hook journal
    obtain ⟨view, t₂, hinvoke, -⟩ :=
      hdrafted.exists_run_invoke interpret h.showable h.generator hfirst hcodeArea hlistBox
    exact ⟨_, _, Component.run_play_nil hinvoke⟩
  | cons event events ih =>
    obtain ⟨t₁, hfirst, hdrafted⟩ := h.first keymap.hook journal
    obtain ⟨view, t₂, hinvoke, h₂⟩ :=
      hdrafted.exists_run_invoke interpret h.showable h.generator hfirst hcodeArea hlistBox
    obtain ⟨action, s', t₃, hhandler, h₃, hvalid, hshowable⟩ :=
      h₂.exists_run_handler journal h.valid h.showable keymap event
    obtain ⟨result, last, hrest⟩ := ih (h₃.opens hvalid hshowable)
    exact ⟨_, _, Component.run_play_cons hinvoke hhandler hrest⟩

end ComboBox

end TerminalUI
