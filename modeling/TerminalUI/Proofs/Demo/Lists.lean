import TerminalUI.Proofs.ListBox.Selection
import TerminalUI.Proofs.Program.Seeding

/-!
# List boxes of a form

A form has list boxes below its level, which may be made with items. `Tree.HasListBox` says that a
tree holds such a list box with some items and a selection, and `Tree.OffersListBox` that a scene of
the form makes it. As for fields, all that can happen to it is here, and none of this changes
anything beside it.

What a list box makes of an event is told by `ListBox.Moves`: the selection moves within the list,
or stays.
-/

namespace TerminalUI

namespace ListBox

/-- What a list box does with an event: the selection after it. -/
inductive Moves (l : Option Items) (i : Nat) : Event → Action → Nat → Prop where
  | up (hd : 0 < clamp i (size l)) :
    Moves l i (.key (.bare .up)) .consumed (clamp i (size l) - 1)
  | down (hd : clamp i (size l) + 1 < size l) :
    Moves l i (.key (.bare .down)) .consumed (clamp i (size l) + 1)
  | unused {event : Event} (hup : event = .key (.bare .up) → clamp i (size l) = 0)
    (hdown : event = .key (.bare .down) → size l ≤ clamp i (size l) + 1) :
    Moves l i event .unused i

theorem Step.moves {level : Path} {l : Option Items} {t t' : Tree} {i i' : Nat} {event : Event}
    {action : Action} (h : Step level l t i event action t' i') : Moves l i event action i' := by
  cases h with
  | up hd => exact .up hd
  | down hd => exact .down hd
  | unused hup hdown => exact .unused hup hdown

/-- The selection is brought into the list, and moves within it. -/
theorem Moves.lt_max {l : Option Items} {i i' : Nat} {event : Event} {action : Action}
    (h : Moves l i event action i') (hi : i < max 1 (size l)) : i' < max 1 (size l) := by
  cases h with
  | up =>
    rw [clamp]
    omega
  | down hd => exact hd.trans_le (Nat.le_max_right 1 _)
  | unused => exact hi

/-- The blueprint of a list box, with the items that it is made with. -/
def blueprint : Option Items → Blueprint
  | none => .listBox
  | some l => .withStates [(itemsName, .items (some l))] .listBox

/-- What the blueprint stands for. -/
def start : Option Items → Component
  | none => listBox
  | some l => listBox.withStates [(.ofString itemsName, .items (some l))]

theorem component_blueprint (depth : Nat) (first : Option Items) :
    (blueprint first).component (depth + 2) = start first := by
  cases first <;> rfl

variable {hook : Option Hook} {level : Path} {m : Tree} {first l : Option Items} {i : Nat}

/-- To make a list box without items is to leave them to their initial elements. -/
theorem withDefaults_withDefault_none (m : Tree) :
    (m.withDefault itemsName (.items none)).withDefaults initialEntries =
      m.withDefaults initialEntries := by
  have hitems : ((m.withDefault itemsName (.items none)).get? itemsName).isSome := by
    rw [Tree.get?_withDefault, if_pos rfl]
    cases m.get? itemsName <;> rfl
  simp only [initialEntries, Tree.withDefaults_cons, Tree.withDefault_of_isSome hitems]

variable (hook) (level) in
theorem exists_leads_invoke_start
    (h : Configured (m.withDefault itemsName (.items first)) l i) :
    ∃ view, Program.Leads hook level ((start first).invoke level) m
      ⟨view, withBinding level tag (handler (items level) (selected level))⟩
      ((m.withDefault itemsName (.items first)).withDefaults initialEntries) := by
  cases first with
  | none =>
    rw [Configured, withDefaults_withDefault_none] at h
    rw [withDefaults_withDefault_none]
    have hconfigured : Configured m l i := h
    exact Component.exists_leads_invoke (hconfigured.leads_scene hook level)
  | some first =>
    obtain ⟨view, hinvoke⟩ := Component.exists_leads_invoke (h.leads_scene hook level)
    exact ⟨view, Component.leads_invoke_withState ListBox.itemsName (by decide) _ hinvoke⟩

end ListBox

namespace Tree

variable {keymap : CodeArea.Keymap} {hook : Option Hook} {level : Path} {name : Name}
  {t t' m : Tree} {journal : List JournalEntry} {first l : Option Items} {i : Nat}

/-- Below the level, the tree holds a list box with the items and the selection. The items `first`
are those that the list box is made with. -/
structure HasListBox (first : Option Items) (level : Path) (name : Name) (t : Tree)
    (l : Option Items) (i : Nat) : Prop where
  ready : ListBox.Ready (level.child name) t l i
  accepts : t.AcceptsAt (level.child name) (ListBox.blueprint first)

/-- Below the level, a scene makes a list box with the items and the selection. -/
def OffersListBox (first : Option Items) (level : Path) (name : Name) (t : Tree)
    (l : Option Items) (i : Nat) : Prop :=
  ∃ m, t.HasMap (level.child name) m ∧ m.Accepts (ListBox.blueprint first) ∧
    ListBox.Configured ((m.withDefault componentName
      (.component (ListBox.blueprint first))).withDefault ListBox.itemsName (.items first)) l i

theorem HasListBox.congr (h : HasListBox first level name t l i)
    (hget : ∀ key : Name, key ≠ errorName →
      t'.resolve ((level.child name).child key) = t.resolve ((level.child name).child key)) :
    HasListBox first level name t' l i := by
  refine ⟨⟨?_, ?_, ?_⟩, ?_⟩
  · exact (hget _ (by decide)).trans h.ready.items
  · exact (hget _ (by decide)).trans h.ready.selected
  · rw [hget _ (by decide)]
    exact h.ready.submit
  · rw [AcceptsAt, hget _ (by decide)]
    exact h.accepts

theorem HasListBox.beside {names : Set Name} (h : HasListBox first level name t l i)
    (hsame : SameBeside level names t t') (hfree : name ∉ names) :
    HasListBox first level name t' l i :=
  h.congr fun key _ => hsame.resolve_grandchild hfree key

theorem HasListBox.offers (h : HasListBox first level name t l i) :
    OffersListBox first level name t l i := by
  obtain ⟨m, hm⟩ := exists_map_of_child h.ready.items
  refine ⟨m, .inl hm, h.accepts.accepts (.inl hm), ?_⟩
  have hholds : ListBox.Holds m l i := by
    constructor
    · rw [← resolve_child hm, h.ready.items]
    · rw [← resolve_child hm, h.ready.selected]
  have hcomponent : ListBox.Holds (m.withDefault componentName
      (.component (ListBox.blueprint first))) l i := by
    refine hholds.congr fun key hkey => ?_
    rw [get?_withDefault, if_neg (by rcases hkey with rfl | rfl <;> decide), Option.or_none]
  -- with items there, none are put
  rw [withDefault_of_isSome (by rw [hcomponent.items, Option.isSome_some])]
  exact hcomponent.configured

/-- Where nothing is, a scene makes a list box with the items for the start. -/
theorem offersListBox_of_eq_none (h : t.resolve (level.child name) = none)
    (first : Option Items) : OffersListBox first level name t first 0 :=
  ⟨.empty, .inr ⟨h, rfl⟩, .inl rfl, by constructor <;> rfl⟩

theorem OffersListBox.beside {names : Set Name} (h : OffersListBox first level name t l i)
    (hsame : SameBeside level names t t') (hfree : name ∉ names) :
    OffersListBox first level name t' l i := by
  simp only [OffersListBox, HasMap, hsame.resolve_child hfree]
  exact h

/-- The handler of a list box. -/
def listHandler (level : Path) : Handler :=
  withBinding level ListBox.tag (ListBox.handler (ListBox.items level) (ListBox.selected level))

variable (hook) (journal) in
/-- A scene makes the list box. -/
theorem OffersListBox.exists_run_subcomponent {interpret : Blueprint → Component}
    (hinterpret : interpret (ListBox.blueprint first) = ListBox.start first)
    (h : OffersListBox first level name t l i) (hlevel : t.resolve level = some (.map m)) :
    ∃ view t', ((Component.subcomponent interpret level name (ListBox.blueprint first)).run
        hook).run ⟨t, journal⟩ = (.ok ⟨view, listHandler (level.child name)⟩, ⟨t', journal⟩) ∧
      HasListBox first level name t' l i ∧ SameBeside level {name} t t' := by
  obtain ⟨f, hf, haccepts, hconfigured⟩ := h
  obtain ⟨view, hinvoke⟩ :=
    ListBox.exists_leads_invoke_start hook (level.child name) hconfigured
  rw [← hinterpret] at hinvoke
  obtain ⟨t', hrun, hf', hsame⟩ :=
    Component.exists_run_subcomponent journal hlevel hf haccepts hinvoke
  refine ⟨view, t', hrun, ⟨hconfigured.ready hf', ?_⟩, hsame⟩
  have hentry : ListBox.initialEntries.lookup componentName.text = none := by rfl
  rw [AcceptsAt, resolve_child hf', get?_withDefaults, hentry, Option.or_none,
    get?_withDefault, if_neg (by decide), Option.or_none]
  exact .inr haccepts.get?_withDefault

variable (journal) in
/-- A list box takes a step for an event that is given to it. -/
theorem HasListBox.exists_run_handler (h : HasListBox first level name t l i)
    (keymap : CodeArea.Keymap) (event : Event) :
    ∃ action i' t', ((listHandler (level.child name) event).run keymap.hook).run ⟨t, journal⟩ =
        (.ok action, ⟨t', journal⟩) ∧
      ListBox.Moves l i event action i' ∧ HasListBox first level name t' l i' ∧
      SameBeside level {name} t t' := by
  obtain ⟨action, t₁, i', hstep⟩ := h.ready.exists_step event
  have hlist : ((ListBox.handler (ListBox.items (level.child name))
      (ListBox.selected (level.child name)) event).run keymap.hook).run ⟨t, journal⟩ =
      (.ok action, ⟨t₁, journal⟩) := hstep.run_handler h.ready
  obtain ⟨t', hrun, hsame⟩ :=
    keymap.exists_run_binding (show ListBox.tag ≠ CodeArea.tag by decide) hlist
  have hstepped : HasListBox first level name t₁ l i' := by
    refine ⟨hstep.ready h.ready, ?_⟩
    rw [AcceptsAt, hstep.sameBeside.resolve_child (by decide)]
    exact h.accepts
  refine ⟨action, i', t', hrun, hstep.moves, hstepped.congr fun key hkey => ?_, ?_⟩
  · exact hsame.resolve_child hkey
  · exact hstep.sameBeside.of_child.trans hsame.of_child

variable (hook) (journal) in
/-- The form writes the items of a list box. -/
theorem HasListBox.exists_run_setItems (h : HasListBox first level name t l i) (l' : Option Items) :
    ∃ t', (((ListBox.items (level.child name)).set l').run hook).run ⟨t, journal⟩ =
        (.ok (), ⟨t', journal⟩) ∧
      HasListBox first level name t' l' i ∧ SameBeside level {name} t t' := by
  obtain ⟨m, hm⟩ := exists_map_of_child h.ready.items
  obtain ⟨t', hrun, hitems, hsame⟩ := Var.exists_run_set_entry hook journal hm l'
  refine ⟨t', hrun, ⟨⟨hitems, ?_, ?_⟩, ?_⟩, hsame.of_child⟩
  · exact (hsame.resolve_child (by decide)).trans h.ready.selected
  · rw [hsame.resolve_child (by decide)]
    exact h.ready.submit
  · rw [AcceptsAt, hsame.resolve_child (by decide)]
    exact h.accepts

end Tree

end TerminalUI
