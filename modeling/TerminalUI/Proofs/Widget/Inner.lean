import TerminalUI.Proofs.CodeArea.Run
import TerminalUI.Proofs.Hook.Messages
import TerminalUI.Proofs.Program.Steps
import TerminalUI.Proofs.State.Growth
import TerminalUI.Widget.ListBox

/-!
# Components inside each other

A component that runs in a map of another one changes that map, and nothing beside it. What a run at
the level of the inner component leads to (`Program.Leads`) is thus known of the run as a part of
the outer one: for the scene (`Component.exists_run_subcomponent`), for its handler
(`Program.Leads.exists_run`), and for a hook that has no use for its events
(`CodeArea.Keymap.exists_run_binding`).

The second half is about the two components of a combo box: which states a code area can go through
as a part of another component, and what a list box makes (`ListBox.Configured.leads_scene`) and
does with an event (`ListBox.exists_leads_handler`).
-/

namespace TerminalUI

open Program

variable {keymap : CodeArea.Keymap} {hook : Option Hook} {level : Path} {t t' : Tree}
  {journal : List JournalEntry} {name : Name}

namespace Tree

variable {m : Tree}

/-- In the map, a component that is to be made with the blueprint is that of the blueprint. -/
def Accepts (m : Tree) (b : Blueprint) : Prop :=
  m.get? componentName = none ∨ m.get? componentName = some (.component b)

/-- At a place, a component that is to be made with the blueprint is that of the blueprint. -/
def AcceptsAt (t : Tree) (p : Path) (b : Blueprint) : Prop :=
  t.resolve (p.child componentName) = none ∨
    t.resolve (p.child componentName) = some (.component b)

theorem AcceptsAt.accepts {b : Blueprint} (h : t.AcceptsAt level b) (hmap : t.HasMap level m) :
    m.Accepts b := by
  rw [Accepts, ← hmap.resolve_child]
  exact h

theorem Accepts.get?_withDefault {b : Blueprint} (h : m.Accepts b) :
    (m.withDefault componentName (.component b)).get? componentName = some (.component b) := by
  rw [Tree.get?_withDefault, if_pos rfl]
  rcases h with h | h <;> rw [h] <;> rfl

end Tree

/-! ### Runs at a level, and what is beside -/

variable (journal) in
theorem Program.Leads.exists_run {α : Type} {p : Program α} {m m' : Tree} {a : α}
    (h : Program.Leads hook level p m a m') (ht : t.resolve level = some (.map m)) :
    ∃ t', (p.run hook).run ⟨t, journal⟩ = (.ok a, ⟨t', journal⟩) ∧
      t'.resolve level = some (.map m') ∧ Tree.SameOutside level t t' :=
  h ⟨t, journal⟩ ht

variable (hook) (journal) in
/-- Setting an entry of a component inside another one, which may have no map yet. -/
theorem Var.exists_run_set {α : Type} [Storable α] {m m' : Tree} (key : Name)
    (hlevel : t.resolve level = some (.map m)) (hmap : t.HasMap (level.child name) m') (a : α) :
    ∃ t', ((Var.set ⟨(level.child name).child key⟩ a).run hook).run ⟨t, journal⟩ =
        (.ok (), ⟨t', journal⟩) ∧
      t'.resolve ((level.child name).child key) = some (Storable.store a) ∧
      Tree.SameBeside (level.child name) {key} t t' := by
  obtain ⟨t', hupdate⟩ := Tree.exists_update_grandchild hlevel hmap (Storable.store a)
  refine ⟨t', by rw [Var.run_set, hupdate], ?_, ?_⟩
  · exact (Tree.update_eq_ok_iff.mp hupdate).resolveFrom_self
  · exact Tree.sameBeside_update (List.prefix_refl _) hupdate

variable (hook) (journal) in
/-- Setting an entry of the level. -/
theorem Var.exists_run_set_entry {α : Type} [Storable α] {m : Tree}
    (hlevel : t.resolve level = some (.map m)) (a : α) :
    ∃ t', ((Var.set ⟨level.child name⟩ a).run hook).run ⟨t, journal⟩ =
        (.ok (), ⟨t', journal⟩) ∧
      t'.resolve (level.child name) = some (Storable.store a) ∧
      Tree.SameBeside level {name} t t' := by
  obtain ⟨t', hupdate, -⟩ := Tree.update_child hlevel (Storable.store a)
  refine ⟨t', by rw [Var.run_set, hupdate], ?_, ?_⟩
  · exact (Tree.update_eq_ok_iff.mp hupdate).resolveFrom_self
  · exact Tree.sameBeside_update (List.prefix_refl _) hupdate

variable (hook) (journal) in
/-- An entry of the level is there, with the initial element if nothing was there before. -/
theorem exists_run_stateAt {α : Type} [Storable α] {m : Tree} {a : α} (initial : α)
    (hlevel : t.resolve level = some (.map m))
    (h : t.resolve (level.child name) = some (Storable.store a) ∨
      t.resolve (level.child name) = none ∧ a = initial) :
    ∃ t', ((stateAt level name initial).run hook).run ⟨t, journal⟩ =
        (.ok ⟨level.child name⟩, ⟨t', journal⟩) ∧
      t'.resolve (level.child name) = some (Storable.store a) ∧
      Tree.SameBeside level {name} t t' := by
  rcases h with h | ⟨h, rfl⟩
  · exact ⟨t, run_stateAt_of_isSome (by rw [h, Option.isSome_some]) initial, h, .refl _ _ _⟩
  · obtain ⟨t', hupdate, -⟩ := Tree.update_child hlevel (Storable.store a)
    refine ⟨t', ?_, (Tree.update_eq_ok_iff.mp hupdate).resolveFrom_self,
      Tree.sameBeside_update (List.prefix_refl _) hupdate⟩
    rw [run_stateAt_of_eq_none h]
    dsimp only
    rw [hupdate]

variable (journal) in
/-- Making the scene of a component inside another one: its map and its blueprint are put there,
unless they were before. -/
theorem Component.exists_run_subcomponent {interpret : Blueprint → Component} {b : Blueprint}
    {m f f' : Tree} {scene : Scene} (hlevel : t.resolve level = some (.map m))
    (hmap : t.HasMap (level.child name) f)
    (haccepts : f.Accepts b)
    (hinvoke : Program.Leads hook (level.child name) ((interpret b).invoke (level.child name))
      (f.withDefault componentName (.component b)) scene f') :
    ∃ t', ((Component.subcomponent interpret level name b).run hook).run ⟨t, journal⟩ =
        (.ok scene, ⟨t', journal⟩) ∧
      t'.resolve (level.child name) = some (.map f') ∧ Tree.SameBeside level {name} t t' := by
  -- first the map of the component
  obtain ⟨t₁, hrun₁, hmap₁, hsame₁⟩ : ∃ t₁, ((stateAt level name Tree.empty).run hook).run
      ⟨t, journal⟩ = (.ok ⟨level.child name⟩, ⟨t₁, journal⟩) ∧
      t₁.resolve (level.child name) = some (.map f) ∧ Tree.SameBeside level {name} t t₁ :=
    exists_run_stateAt hook journal (a := f) .empty hlevel hmap
  -- then the blueprint that is kept there, and its scene
  have hleads : Program.Leads hook (level.child name) (do
      let kept ← stateAt (level.child name) componentName b
      (interpret (← kept.get)).invoke (level.child name)) f scene f' :=
    .bind (Var.leads_stateAt b) (.bind (Var.leads_get haccepts.get?_withDefault) hinvoke)
  obtain ⟨t', hrun, hmap', hsame⟩ := hleads.exists_run journal hmap₁
  refine ⟨t', ?_, hmap', hsame₁.trans (hsame.beside)⟩
  rw [Component.subcomponent, Program.run_bind_of_ok hrun₁]
  exact hrun

/-- The message of a failed hook takes the place of the view, and nothing else. -/
theorem Component.exists_leads_invoke {c : Component} {m m' : Tree} {scene : Scene}
    (h : Program.Leads hook level (c level) m scene m') :
    ∃ view, Program.Leads hook level (c.invoke level) m { scene with view } m' := by
  -- the map alone tells whether there is a message
  cases hentry : (m'.get? errorName).bind (Storable.load? (α := String)) with
  | some message =>
    refine ⟨.error message, .bind h (.tree_bind fun t ht => ?_)⟩
    obtain ⟨v, hv, hload⟩ := Option.bind_eq_some_iff.mp hentry
    simp only [Tree.load, Tree.resolve_child ht, hv, hload]
    exact .pure _
  | none =>
    refine ⟨scene.view, .bind h (.tree_bind fun t ht => ?_)⟩
    have hload : ∃ e, t.load String (level.child errorName) = .error e := by
      rw [Tree.load, Tree.resolve_child ht]
      cases hv : m'.get? errorName with
      | none => exact ⟨_, rfl⟩
      | some v =>
        rw [hv, Option.bind_some] at hentry
        dsimp only
        rw [hentry]
        exact ⟨_, rfl⟩
    obtain ⟨e, he⟩ := hload
    rw [he]
    exact .pure _

namespace CodeArea

/-- A keymap has no use for events at the binding points of other widgets. -/
theorem Keymap.exists_run_binding (keymap : Keymap) {tag : String} (htag : tag ≠ CodeArea.tag)
    {handler : Handler} {event : Event} {action : Action}
    (hrun : ((handler event).run keymap.hook).run ⟨t, journal⟩ = (.ok action, ⟨t', journal⟩)) :
    ∃ t'', ((withBinding level tag handler event).run keymap.hook).run ⟨t, journal⟩ =
        (.ok action, ⟨t'', journal⟩) ∧ Tree.SameBeside level {errorName} t' t'' := by
  cases hhook : keymap.hook with
  | none =>
    rw [hhook] at hrun
    exact ⟨t', by rw [run_withBinding]; exact hrun, .refl _ _ _⟩
  | some h =>
    have hanswer : (h event level tag fun e => (handler e).run keymap.hook).run ⟨t, journal⟩ =
        (.ok (.ok action), ⟨t', journal⟩) := by
      have hmovement : (Hook.movement event level tag fun e => (handler e).run keymap.hook).run
          ⟨t, journal⟩ = (.ok (.ok action), ⟨t', journal⟩) := by
        rw [Hook.movement, TerminalUI.run_bind_of_ok hrun, if_pos (by simp [htag])]
        rfl
      cases keymap with
      | none => cases hhook
      | movement =>
        cases hhook
        exact hmovement
      | submission =>
        cases hhook
        rw [Hook.submission, if_neg (by simp [htag])]
        exact hmovement
    rw [hhook] at hanswer
    rw [run_withBinding]
    exact exists_run_dispatchThrough_of_ok hanswer

/-- The code can be shown, whatever is typed. -/
def State.Showable (s : State) : Prop :=
  ∀ content, ∃ code tips, shownCode s.highlighter s.pending content = .ok (code, tips)

variable {s s' : State} {event : Event} {action : Action}

theorem Typing.pending_eq {k : Key} (h : Typing s k action s') : s'.pending = s.pending := by
  cases h <;> rfl

theorem Handled.pending_eq (h : Handled s event action s') : s'.pending = s.pending := by
  cases h with
  | typing _ htyping => exact htyping.pending_eq
  | _ => rfl

theorem Step.pending_eq (h : Step keymap s event action s') : s'.pending = s.pending := by
  cases h with
  | submitted => rfl
  | moved _ hhandled => exact hhandled.pending_eq
  | handled _ _ hhandled => exact hhandled.pending_eq

theorem Step.showable (h : Step keymap s event action s') (hs : s.Showable) : s'.Showable := by
  intro content
  rw [h.highlighter_eq, h.pending_eq]
  exact hs content

theorem get?_initialized {m : Tree} {name : String} (hcore : coreEntries.lookup name = none)
    (habbreviation : abbreviationEntries.lookup name = none)
    (hpaste : pasteEntries.lookup name = none) :
    (initialized m).get? name = m.get? name := by
  simp only [initialized, Tree.get?_withDefaults, hcore, habbreviation, hpaste, Option.or_none]

/-- Entries that a code area does not know make no difference to it. -/
theorem Configured.withDefault {m : Tree} (h : Configured m s) {name : String}
    (hname : name ∉ (coreEntries ++ abbreviationEntries ++ pasteEntries).map Prod.fst)
    (v : Value) : Configured (m.withDefault name v) s := by
  have hget {key : String} (hkey : key ≠ name) :
      (initialized (m.withDefault name v)).get? key = (initialized m).get? key := by
    simp only [initialized, Tree.get?_withDefaults, Tree.get?_withDefault, if_neg hkey,
      Option.or_none]
  simp only [coreEntries, abbreviationEntries, pasteEntries, List.map_cons, List.map_nil,
    List.cons_append, List.nil_append, List.mem_cons, List.not_mem_nil, or_false, not_or] at hname
  constructor
  all_goals rw [hget (Ne.symm (by simp [hname]))]
  exacts [h.prompt, h.rightPrompt, h.buffer, h.pending, h.highlighter, h.simple, h.command,
    h.smallWord, h.streak, h.pasting, h.pasted, h.quote]

end CodeArea

/-! ### The list box -/

namespace ListBox

/-- The map has the entries of a list box. -/
structure Holds (m : Tree) (l : Option Items) (i : Nat) : Prop where
  items : m.get? itemsName = some (.items l)
  selected : m.get? selectedName = some (.index i)

variable {m m' : Tree} {l : Option Items} {i : Nat} {event : Event}

theorem Holds.congr (h : Holds m l i)
    (hget : ∀ name : String, name = itemsName ∨ name = selectedName → m'.get? name = m.get? name) :
    Holds m' l i :=
  ⟨(hget _ (.inl rfl)).trans h.items, (hget _ (.inr rfl)).trans h.selected⟩

/-- The entries that a list box makes, with their initial elements. -/
def initialEntries : List (String × Value) :=
  [(itemsName, .items none), (selectedName, .index 0), (submitName, .submit .silent)]

/-- The map has the list and the index, or leaves them to their initial elements. -/
def Configured (m : Tree) (l : Option Items) (i : Nat) : Prop :=
  Holds (m.withDefaults initialEntries) l i

variable (hook) (level) in
/-- Making the scene of a list box makes the missing entries. -/
theorem Configured.leads_scene (h : Configured m l i) :
    Program.Leads hook level (listBox level) m
      ⟨view l i, withBinding level tag (handler (items level) (selected level))⟩
      (m.withDefaults initialEntries) := by
  have hholds : Holds (m.withDefaults initialEntries) l i := h
  rw [initialEntries] at hholds ⊢
  simp only [Tree.withDefaults_cons, Tree.withDefaults_nil] at hholds ⊢
  refine .bind (Var.leads_stateAt _) (.bind (Var.leads_stateAt _) ?_)
  refine .bind (Var.leads_stateAt _) ?_
  refine .bind (Var.leads_get hholds.items) ?_
  -- the selection is read only if there are items
  cases l with
  | none => exact .pure _
  | some l => exact .bind (Var.leads_get hholds.selected) (.pure _)

/-- With the list and the index, the callback for choices is all that can be missing. -/
theorem Holds.withDefaults_eq (h : Holds m l i) :
    m.withDefaults initialEntries = m.withDefault submitName (.submit .silent) := by
  have hitems : m.withDefault itemsName (.items none) = m :=
    Tree.withDefault_of_isSome (by rw [h.items, Option.isSome_some]) _
  have hselected : m.withDefault selectedName (.index 0) = m :=
    Tree.withDefault_of_isSome (by rw [h.selected, Option.isSome_some]) _
  simp only [initialEntries, Tree.withDefaults_cons, Tree.withDefaults_nil, hitems, hselected]

theorem Holds.configured (h : Holds m l i) : Configured m l i := by
  rw [Configured, h.withDefaults_eq]
  refine h.congr fun name hname => ?_
  rw [Tree.get?_withDefault, if_neg (by rcases hname with rfl | rfl <;> decide), Option.or_none]

variable (hook) (level) in
theorem exists_leads_scene (h : Holds m l i) :
    ∃ view, Program.Leads hook level (listBox level) m
      ⟨view, withBinding level tag (handler (items level) (selected level))⟩
      (m.withDefault submitName (.submit .silent)) := by
  have hleads := h.configured.leads_scene hook level
  rw [h.withDefaults_eq] at hleads
  exact ⟨_, hleads⟩

variable (hook) (level) in
/-- An event changes the selection at most. -/
theorem exists_leads_handler (h : Holds m l i) (event : Event) :
    ∃ action i' m', Program.Leads hook level (handler (items level) (selected level) event) m action
        m' ∧
      Holds m' l i' ∧ ∀ name : String, name ≠ selectedName → m'.get? name = m.get? name := by
  have hset (j : Nat) : Holds (m.insert selectedName (.index j)) l j :=
    ⟨(Tree.get?_insert_of_ne (by decide) _).trans h.items, Tree.get?_insert_self m _ _⟩
  have hother (j : Nat) (name : String) (hname : name ≠ selectedName) :
      (m.insert selectedName (.index j)).get? name = m.get? name :=
    Tree.get?_insert_of_ne hname _
  cases event with
  | paste starts => exact ⟨.unused, i, m, .pure _, h, fun _ _ => rfl⟩
  | resize rows columns => exact ⟨.unused, i, m, .pure _, h, fun _ _ => rfl⟩
  | key key =>
    have hread {action : Action} {m' : Tree} {p : Option Items → Nat → Program Action}
        (hp : Program.Leads hook level (p l i) m action m') : Program.Leads hook level (do
          let l ← (items level).get
          p l (← (selected level).get)) m action m' :=
      .bind (Var.leads_get h.items) (.bind (Var.leads_get h.selected) hp)
    let j := clamp i (l.elim 0 Items.size)
    by_cases hup : (key.isBare .up && j > 0) = true
    · refine ⟨.consumed, j - 1, _, hread ?_, hset _, hother _⟩
      dsimp only
      rw [if_pos hup]
      exact .bind (Var.leads_set _) (.pure _)
    · by_cases hdown : (key.isBare .down && j + 1 < l.elim 0 Items.size) = true
      · refine ⟨.consumed, j + 1, _, hread ?_, hset _, hother _⟩
        dsimp only
        rw [if_neg hup, if_pos hdown]
        exact .bind (Var.leads_set _) (.pure _)
      · refine ⟨.unused, i, m, hread ?_, h, fun _ _ => rfl⟩
        dsimp only
        rw [if_neg hup, if_neg hdown]
        exact .pure _

end ListBox

end TerminalUI
