import TerminalUI.Proofs.Application.Machine
import TerminalUI.Proofs.Demo.Fields
import TerminalUI.Proofs.Demo.Lists
import TerminalUI.Proofs.Demo.Portable

/-!
# Runs of the to-do list

A to-do list is a list box, a field for new entries and a focus on one of them. `TodoList.Step`
tells what becomes of an event: only keys are dealt with at all, Tab switches the focus, and any
other key is given to the focused part first, unless it is Enter in the field. The to-do list started
on the empty tree is a machine with these steps, under every keymap (`TodoList.machine`).
-/

namespace TerminalUI

namespace TodoList

/-! ### States and steps -/

/-- The parts that can have the focus. -/
inductive Part where
  | list | entry
  deriving DecidableEq

namespace Part

/-- The focus on the part. -/
def index : Part → Nat
  | list => 0
  | entry => 1

/-- The other part. -/
def other : Part → Part
  | list => entry
  | entry => list

end Part

/-- What a to-do list goes through: the entries, the list box, the field, and the focus. -/
structure State where
  todos : List Todo := []
  items : Option Items := none
  selected : Nat := 0
  entry : CodeArea.State := { prompt := .plain "new item: " }
  focus : Part := .entry

/-- The state with other entries, which the list box shows. -/
def State.update (s : State) (f : List Todo → List Todo) : State :=
  { s with todos := f s.todos, items := some (TodoList.items (f s.todos)) }

/-- What becomes of an event. -/
inductive Step (keymap : CodeArea.Keymap) (s : State) : Event → Action → State → Prop where
  | ignored {event : Event} (hkey : event.key? = none) : Step keymap s event .unused s
  | switched : Step keymap s (.key (.bare .tab)) .consumed { s with focus := s.focus.other }
  | moved {k : Key} {i : Nat} (hfocus : s.focus = .list)
    (hmoves : ListBox.Moves s.items s.selected (.key k) .consumed i) :
    Step keymap s (.key k) .consumed { s with selected := i }
  | lowered (hfocus : s.focus = .list)
    (hmoves : ListBox.Moves s.items s.selected (.key (.bare .down)) .unused s.selected) :
    Step keymap s (.key (.bare .down)) .consumed { s with focus := .entry }
  | toggled (hfocus : s.focus = .list) :
    Step keymap s (.key (.bare (.char ' '))) .consumed (s.update (toggle s.selected))
  | unused {k : Key} (hfocus : s.focus = .list) (htab : k ≠ .bare .tab) (hdown : k ≠ .bare .down)
    (hspace : k ≠ .bare (.char ' '))
    (hmoves : ListBox.Moves s.items s.selected (.key k) .unused s.selected) :
    Step keymap s (.key k) .unused s
  | added (hfocus : s.focus = .entry) :
    Step keymap s (.key (.bare .enter)) .consumed
      { s.update (· ++ [⟨s.entry.buffer.content, false⟩]) with
        entry := { s.entry with buffer := {} } }
  | edited {k : Key} {action : Action} {x : CodeArea.State} (hfocus : s.focus = .entry)
    (htab : k ≠ .bare .tab) (henter : k ≠ .bare .enter)
    (hup : k = .bare .up → action ≠ .unused)
    (hentry : CodeArea.Step keymap s.entry (.key k) action x) :
    Step keymap s (.key k) action { s with entry := x }
  | raised {x : CodeArea.State} (hfocus : s.focus = .entry)
    (hentry : CodeArea.Step keymap s.entry (.key (.bare .up)) .unused x) :
    Step keymap s (.key (.bare .up)) .consumed { s with entry := x, focus := .list }

variable {keymap : CodeArea.Keymap} {hook : Option Hook} {level : Path} {t t' : Tree}
  {journal : List JournalEntry} {s s' : State} {x : CodeArea.State} {l : Option Items} {i : Nat}

/-! ### The tree -/

/-- The tree holds all of the state. -/
structure Ready (level : Path) (t : Tree) (s : State) : Prop where
  todos : t.resolve (level.child todosName) = some (.todos s.todos)
  list : t.HasListBox none level listName s.items s.selected
  entry : t.HasField level newItemName "new item: " s.entry
  focus : t.resolve (level.child focusName) = some (.index s.focus.index)

theorem Ready.exists_map (h : Ready level t s) : ∃ m, t.resolve level = some (.map m) :=
  Tree.exists_map_of_child h.focus

theorem Ready.setTodos {todos : List Todo} (h : Ready level t s)
    (hsame : t.SameBeside level {todosName} t')
    (htodos : t'.resolve (level.child todosName) = some (.todos todos)) :
    Ready level t' { s with todos := todos } where
  todos := htodos
  list := h.list.beside hsame (by decide)
  entry := h.entry.beside hsame (by decide)
  focus := (hsame.resolve_child (by decide)).trans h.focus

theorem Ready.setList (h : Ready level t s) (hsame : t.SameBeside level {listName} t')
    (hlist : t'.HasListBox none level listName l i) :
    Ready level t' { s with items := l, selected := i } where
  todos := (hsame.resolve_child (by decide)).trans h.todos
  list := hlist
  entry := h.entry.beside hsame (by decide)
  focus := (hsame.resolve_child (by decide)).trans h.focus

theorem Ready.setEntry (h : Ready level t s) (hsame : t.SameBeside level {newItemName} t')
    (hentry : t'.HasField level newItemName "new item: " x) :
    Ready level t' { s with entry := x } where
  todos := (hsame.resolve_child (by decide)).trans h.todos
  list := h.list.beside hsame (by decide)
  entry := hentry
  focus := (hsame.resolve_child (by decide)).trans h.focus

theorem Ready.setFocus {part : Part} (h : Ready level t s)
    (hsame : t.SameBeside level {focusName} t')
    (hfocus : t'.resolve (level.child focusName) = some (.index part.index)) :
    Ready level t' { s with focus := part } where
  todos := (hsame.resolve_child (by decide)).trans h.todos
  list := h.list.beside hsame (by decide)
  entry := h.entry.beside hsame (by decide)
  focus := hfocus

/-! ### Events -/

/-- The handler of the scenes at a level, with the focus that they are made with. -/
def sceneHandler (level : Path) (part : Part) : Handler :=
  handler (.at level) part.index (Tree.listHandler (level.child listName))
    (CodeArea.handler (level.child newItemName))

variable (hook) (journal) in
theorem Ready.exists_run_setFocus (h : Ready level t s) (part : Part) :
    ∃ t', (((Vars.at level).focus.set part.index).run hook).run ⟨t, journal⟩ =
        (.ok (), ⟨t', journal⟩) ∧
      Ready level t' { s with focus := part } := by
  obtain ⟨m, hm⟩ := h.exists_map
  obtain ⟨t', hrun, hfocus, hsame⟩ := Var.exists_run_set_entry hook journal hm part.index
  exact ⟨t', hrun, h.setFocus hsame hfocus⟩

variable (hook) (journal) in
/-- The entries and the items that show them are changed. -/
theorem Ready.exists_run_update (h : Ready level t s) (f : List Todo → List Todo) :
    ∃ t', ((update (.at level) f).run hook).run ⟨t, journal⟩ = (.ok (), ⟨t', journal⟩) ∧
      Ready level t' (s.update f) := by
  have hget : (((Vars.at level).todos.get).run hook).run ⟨t, journal⟩ =
      (.ok s.todos, ⟨t, journal⟩) := Var.run_get_of_resolve hook h.todos
  obtain ⟨t₁, hitems, hlist, hsame₁⟩ :=
    h.list.exists_run_setItems hook journal (some (TodoList.items (f s.todos)))
  have h₁ := h.setList hsame₁ hlist
  obtain ⟨m, hm⟩ := h₁.exists_map
  obtain ⟨t', htodos, hresolve, hsame⟩ := Var.exists_run_set_entry hook journal hm (f s.todos)
  refine ⟨t', ?_, h₁.setTodos hsame hresolve⟩
  rw [update, Program.run_bind_of_ok hget]
  exact (Program.run_bind_of_ok hitems _).trans htodos

variable (journal) in
/-- A key that comes to the list. -/
theorem Ready.exists_run_listKey (h : Ready level t s) (hfocus : s.focus = .list)
    (keymap : CodeArea.Keymap) {k : Key} (htab : k ≠ .bare .tab) :
    ∃ action s' t', ((listKey (.at level) (Tree.listHandler (level.child listName)) (.key k)).run
        keymap.hook).run ⟨t, journal⟩ = (.ok action, ⟨t', journal⟩) ∧
      Step keymap s (.key k) action s' ∧ Ready level t' s' := by
  obtain ⟨action, i, t₁, hlist, hmoves, hlist', hsame⟩ :=
    h.list.exists_run_handler journal keymap (.key k)
  have h₁ := h.setList hsame hlist'
  rw [listKey, Program.run_bind_of_ok hlist]
  by_cases haction : action = .unused
  · subst haction
    obtain rfl : i = s.selected := by cases hmoves; rfl
    rw [if_neg (not_not_intro rfl)]
    by_cases hdown : k = .bare .down
    · subst hdown
      obtain ⟨t', hset, h'⟩ := h₁.exists_run_setFocus keymap.hook journal .entry
      refine ⟨.consumed, _, t', ?_, .lowered hfocus hmoves, h'⟩
      rw [if_pos (Event.isBare_key.2 rfl)]
      exact Program.run_bind_of_ok hset _
    · have hnotDown := mt Event.isBare_key.1 hdown
      by_cases hspace : k = .bare (.char ' ')
      · subst hspace
        obtain ⟨t', hupdate, h'⟩ :=
          h₁.exists_run_update keymap.hook journal (toggle s.selected)
        refine ⟨.consumed, _, t', ?_, .toggled hfocus, h'⟩
        rw [if_neg hnotDown, if_pos (Event.isBare_key.2 rfl)]
        refine (Program.run_bind_of_ok (h₁.list.ready.run_selected keymap.hook journal) _).trans ?_
        exact Program.run_bind_of_ok hupdate _
      · refine ⟨.unused, s, t₁, ?_, .unused hfocus htab hdown hspace hmoves, h₁⟩
        rw [if_neg hnotDown, if_neg (mt Event.isBare_key.1 hspace)]
        rfl
  · obtain rfl : action = .consumed := by
      cases hmoves with
      | unused => exact absurd rfl haction
      | _ => rfl
    refine ⟨.consumed, _, t₁, ?_, .moved hfocus hmoves, h₁⟩
    rw [if_pos haction]
    rfl

variable (journal) in
/-- A key that comes to the field. -/
theorem Ready.exists_run_entryKey (h : Ready level t s) (hfocus : s.focus = .entry)
    (keymap : CodeArea.Keymap) {k : Key} (htab : k ≠ .bare .tab) :
    ∃ action s' t', ((entryKey (.at level) (CodeArea.handler (level.child newItemName))
        (.key k)).run keymap.hook).run ⟨t, journal⟩ = (.ok action, ⟨t', journal⟩) ∧
      Step keymap s (.key k) action s' ∧ Ready level t' s' := by
  rw [entryKey]
  by_cases henter : k = .bare .enter
  · subst henter
    obtain ⟨t₁, hupdate, h₁⟩ := h.exists_run_update keymap.hook journal
      (· ++ [⟨s.entry.buffer.content, false⟩])
    obtain ⟨t', hset, hentry, hsame⟩ :=
      h₁.entry.exists_run_set keymap.hook journal (CodeBuffer.valid_ofContent "" 0)
    refine ⟨.consumed, _, t', ?_, .added hfocus, h₁.setEntry hsame hentry⟩
    rw [if_pos (Event.isBare_key.2 rfl)]
    refine (Program.run_bind_of_ok (h.entry.run_get keymap.hook journal) _).trans ?_
    refine (Program.run_bind_of_ok hupdate _).trans ?_
    exact Program.run_bind_of_ok hset _
  · obtain ⟨action, x, t₁, hentry, hstep, hentry', hsame⟩ :=
      h.entry.exists_run_handler journal keymap (.key k)
    have h₁ := h.setEntry hsame hentry'
    rw [if_neg (mt Event.isBare_key.1 henter), Program.run_bind_of_ok hentry]
    by_cases hraised : action = .unused ∧ k = .bare .up
    · obtain ⟨rfl, rfl⟩ := hraised
      obtain ⟨t', hset, h'⟩ := h₁.exists_run_setFocus keymap.hook journal .list
      refine ⟨.consumed, _, t', ?_, .raised hfocus hstep, h'⟩
      rw [if_pos (by decide)]
      exact Program.run_bind_of_ok hset _
    · refine ⟨action, _, t₁, ?_, .edited hfocus htab henter (fun hup haction =>
        hraised ⟨haction, hup⟩) hstep, h₁⟩
      rw [if_neg (by simpa [Event.isBare_key] using hraised)]
      rfl

variable (journal) in
/-- The to-do list takes a step for every event. -/
theorem Ready.exists_run_handler (h : Ready level t s) (keymap : CodeArea.Keymap) (event : Event) :
    ∃ action s' t', ((sceneHandler level s.focus event).run keymap.hook).run ⟨t, journal⟩ =
        (.ok action, ⟨t', journal⟩) ∧
      Step keymap s event action s' ∧ Ready level t' s' := by
  rw [sceneHandler, handler]
  cases event with
  | paste starts => exact ⟨.unused, s, t, rfl, .ignored rfl, h⟩
  | resize rows columns => exact ⟨.unused, s, t, rfl, .ignored rfl, h⟩
  | key k =>
    rw [if_neg (by simp [Event.key?])]
    by_cases htab : k = .bare .tab
    · subst htab
      obtain ⟨t', hset, h'⟩ := h.exists_run_setFocus keymap.hook journal s.focus.other
      refine ⟨.consumed, _, t', ?_, .switched, h'⟩
      have hindex : s.focus.other.index = 1 - s.focus.index := by cases s.focus <;> rfl
      have hle : ¬ s.focus.index > 1 := by cases s.focus <;> decide
      rw [hindex] at hset
      rw [if_pos (Event.isBare_key.2 rfl), if_neg hle, Program.run_bind_of_ok hset]
      rfl
    · rw [if_neg (mt Event.isBare_key.1 htab)]
      cases hfocus : s.focus with
      | list => exact h.exists_run_listKey journal hfocus keymap htab
      | entry => exact h.exists_run_entryKey journal hfocus keymap htab

/-! ### Scenes -/

/-- A scene makes all of the state. -/
structure Offers (level : Path) (t : Tree) (s : State) : Prop where
  exists_map : ∃ m, t.resolve level = some (.map m)
  todos : t.resolve (level.child todosName) = some (.todos s.todos) ∨
    t.resolve (level.child todosName) = none ∧ s.todos = []
  list : t.OffersListBox none level listName s.items s.selected
  entry : t.OffersField level newItemName "new item: " s.entry
  focus : t.resolve (level.child focusName) = some (.index s.focus.index) ∨
    t.resolve (level.child focusName) = none ∧ s.focus.index = 1

theorem Ready.offers (h : Ready level t s) : Offers level t s :=
  ⟨h.exists_map, .inl h.todos, h.list.offers, h.entry.offers, .inl h.focus⟩

/-- The first scene makes an empty list, and the focus is on the field. -/
theorem offers_empty : Offers .root .empty {} where
  exists_map := ⟨_, rfl⟩
  todos := .inr ⟨rfl, rfl⟩
  list := Tree.offersListBox_of_eq_none rfl none
  entry := Tree.offersField_of_eq_none rfl "new item: "
  focus := .inr ⟨rfl, rfl⟩

variable (hook) (journal) in
theorem Offers.exists_run_scene {interpret : Blueprint → Component}
    (hfields : Tree.InterpretsFields interpret) (hlistBox : interpret .listBox = listBox)
    (h : Offers level t s) :
    ∃ view t', ((todoList interpret level).run hook).run ⟨t, journal⟩ =
        (.ok ⟨view, sceneHandler level s.focus⟩, ⟨t', journal⟩) ∧ Ready level t' s := by
  obtain ⟨m, hm⟩ := h.exists_map
  obtain ⟨t₁, htodos, htodos₁, hsame₁⟩ := exists_run_stateAt hook journal (a := s.todos) []
    hm h.todos
  obtain ⟨m₁, hm₁⟩ := Tree.exists_map_of_child htodos₁
  obtain ⟨list, t₂, hlist, hlist₂, hsame₂⟩ :=
    (h.list.beside hsame₁ (by decide)).exists_run_subcomponent hook journal hlistBox hm₁
  have htodos₂ := (hsame₂.resolve_child (by decide)).trans htodos₁
  obtain ⟨m₂, hm₂⟩ := Tree.exists_map_of_child htodos₂
  have hentry := (h.entry.beside hsame₁ (by decide)).beside hsame₂ (by decide)
  obtain ⟨entry, t₃, hentry, hentry₃, hsame₃⟩ :=
    hentry.exists_run_subcomponent hook journal hfields hm₂
  have htodos₃ := (hsame₃.resolve_child (by decide)).trans htodos₂
  obtain ⟨m₃, hm₃⟩ := Tree.exists_map_of_child htodos₃
  have hfocus₃ : t₃.resolve (level.child focusName) = t.resolve (level.child focusName) := by
    rw [hsame₃.resolve_child (by decide), hsame₂.resolve_child (by decide),
      hsame₁.resolve_child (by decide)]
  obtain ⟨t', hfocus, hfocus', hsame⟩ := exists_run_stateAt hook journal (a := s.focus.index) 1
    hm₃ (hfocus₃ ▸ h.focus)
  refine ⟨.rows [list, entry] s.focus.index, t', ?_, ?_, ?_, ?_, hfocus'⟩
  · have hget : ((Var.get (Var.mk (α := Nat) (level.child focusName))).run hook).run
        ⟨t', journal⟩ = (.ok s.focus.index, ⟨t', journal⟩) := Var.run_get_of_resolve hook hfocus'
    rw [todoList]
    refine (Program.run_bind_of_ok htodos _).trans ?_
    refine (Program.run_bind_of_ok hlist _).trans ?_
    refine (Program.run_bind_of_ok hentry _).trans ?_
    refine (Program.run_bind_of_ok hfocus _).trans ?_
    exact (Program.run_bind_of_ok hget _).trans rfl
  · exact (hsame.resolve_child (by decide)).trans htodos₃
  · exact (hlist₂.beside hsame₃ (by decide)).beside hsame (by decide)
  · exact hentry₃.beside hsame (by decide)

/-! ### The machine -/

/-- The application that is a to-do list under a keymap. -/
def application (keymap : CodeArea.Keymap) : Application := ⟨Blueprint.todo.start, keymap.hook⟩

theorem start_todo : Blueprint.todo.start = todoList (Blueprint.component 9999) := by
  have hcomponent (depth : Nat) : Blueprint.todo.component (depth + 1) =
      todoList (Blueprint.component depth) := rfl
  exact hcomponent 9999

variable (keymap) (journal) in
theorem Offers.exists_run_application (h : Offers .root t s) :
    ∃ view t', (application keymap).scene.run ⟨t, journal⟩ =
        (.ok ⟨view, sceneHandler .root s.focus⟩, ⟨t', journal⟩) ∧ Ready .root t' s := by
  obtain ⟨view, t', hscene, h'⟩ := h.exists_run_scene keymap.hook journal
    (Tree.interpretsFields_component 9997) rfl
  have hinvoke := Component.run_invoke hscene
  rw [← start_todo] at hinvoke
  exact ⟨_, t', hinvoke, h'⟩

/-- The to-do list as a machine. -/
def machine (keymap : CodeArea.Keymap) : Machine State where
  application := application keymap
  holds := Ready .root
  handler s := sceneHandler .root s.focus
  step := Step keymap
  initial := {}
  exists_first := offers_empty.exists_run_application keymap []
  exists_scene h journal := h.offers.exists_run_application keymap journal
  exists_reaction h event journal := h.exists_run_handler journal keymap event

end TodoList

end TerminalUI
