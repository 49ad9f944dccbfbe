import TerminalUI.Proofs.ListBox.Display
import TerminalUI.Proofs.Widget.Totality

/-!
# The selection of a list box

A list box brings the stored index into the list twice, once to show the selected item and once to
move from it. Here both are followed over a run, at any place in a tree and without a hook, for any
index that is stored at first and any list.

* `ListBox.Step` : what becomes of an event, with the tree before and after it;
* `ListBox.Ready.exists_run_play` : a list box takes a step for each of any events;
* `ListBox.selection_is_shown` : **the selection moves within the list, and is what is shown**.
-/

namespace TerminalUI

open Program

variable {hook : Option Hook} {level : Path} {t t' : Tree} {journal : List JournalEntry}

/-- The view, or the message of a failed hook in its place. -/
def Tree.shownAt (t : Tree) (level : Path) (view : View) : View :=
  match t.load String (level.child errorName) with
  | .ok message => .error message
  | .error _ => view

theorem Tree.SameBeside.shownAt_eq {names : Set Name} (h : t.SameBeside level names t')
    (herror : errorName ∉ names) (view : View) : t'.shownAt level view = t.shownAt level view := by
  rw [shownAt, shownAt, load, load, h.resolve_child herror]

theorem Component.run_invoke {c : Component} {s s' : Session} {scene : Scene}
    (h : ((c level).run hook).run s = (.ok scene, s')) :
    ((c.invoke level).run hook).run s =
      (.ok { scene with view := s'.tree.shownAt level scene.view }, s') := by
  rw [invoke, Program.run_bind_of_ok h, Tree.shownAt]
  have hmessage := Var.run_tryGet (α := String) hook s' (level.child errorName)
  refine (Program.run_bind_of_ok hmessage _).trans ?_
  cases s'.tree.load String (level.child errorName) <;> rfl

namespace ListBox

variable {l : Option Items} {i i' : Nat} {event : Event} {action : Action}

/-- The length of the list. -/
def size (l : Option Items) : Nat := l.elim 0 Items.size

/-- What becomes of an event, with the tree and the index stored in it before and after. -/
inductive Step (level : Path) (l : Option Items) (t : Tree) (i : Nat) :
    Event → Action → Tree → Nat → Prop where
  | up {t' : Tree} (hd : 0 < clamp i (size l))
    (hstore : t.update (level.child selectedName) (.index (clamp i (size l) - 1)) = .ok t') :
    Step level l t i (.key (.bare .up)) .consumed t' (clamp i (size l) - 1)
  | down {t' : Tree} (hd : clamp i (size l) + 1 < size l)
    (hstore : t.update (level.child selectedName) (.index (clamp i (size l) + 1)) = .ok t') :
    Step level l t i (.key (.bare .down)) .consumed t' (clamp i (size l) + 1)
  | unused {event : Event} (hup : event = .key (.bare .up) → clamp i (size l) = 0)
    (hdown : event = .key (.bare .down) → size l ≤ clamp i (size l) + 1) :
    Step level l t i event .unused t i

/-- The tree has the entries of a list box at the level. -/
structure Ready (level : Path) (t : Tree) (l : Option Items) (i : Nat) : Prop where
  items : t.resolve (level.child itemsName) = some (.items l)
  selected : t.resolve (level.child selectedName) = some (.index i)
  submit : (t.resolve (level.child submitName)).isSome

/-! ### One step -/

theorem Step.lt (h : Step level l t i event action t' i') (hi : i < size l) : i' < size l := by
  cases h with
  | up => rw [clamp]; omega
  | down hd => exact hd
  | unused => exact hi

theorem Step.sameBeside (h : Step level l t i event action t' i') :
    t.SameBeside level {selectedName} t' := by
  cases h with
  | up _ hstore => exact Tree.sameBeside_update (List.prefix_refl _) hstore
  | down _ hstore => exact Tree.sameBeside_update (List.prefix_refl _) hstore
  | unused => exact .refl _ _ _

theorem Step.ready (h : Step level l t i event action t' i') (ht : Ready level t l i) :
    Ready level t' l i' := by
  have hsame := h.sameBeside
  refine ⟨?_, ?_, ?_⟩
  · rw [hsame.resolve_child (by decide), ht.items]
  · cases h with
    | up _ hstore => exact (Tree.update_eq_ok_iff.mp hstore).resolveFrom_self
    | down _ hstore => exact (Tree.update_eq_ok_iff.mp hstore).resolveFrom_self
    | unused => exact ht.selected
  · rw [hsame.resolve_child (by decide)]
    exact ht.submit

/-- There is a step for every event. -/
theorem Ready.exists_step (h : Ready level t l i) (event : Event) :
    ∃ action t' i', Step level l t i event action t' i' := by
  obtain ⟨m, hm⟩ := Tree.exists_map_of_child h.selected
  have hstore (j : Nat) : ∃ t', t.update (level.child selectedName) (.index j) = .ok t' := by
    obtain ⟨t', hupdate, -⟩ := Tree.update_child hm (.index j)
    exact ⟨t', hupdate⟩
  by_cases hup : event = .key (.bare .up) ∧ 0 < clamp i (size l)
  · obtain ⟨rfl, hd⟩ := hup
    obtain ⟨t', ht'⟩ := hstore (clamp i (size l) - 1)
    exact ⟨_, t', _, .up hd ht'⟩
  · by_cases hdown : event = .key (.bare .down) ∧ clamp i (size l) + 1 < size l
    · obtain ⟨rfl, hd⟩ := hdown
      obtain ⟨t', ht'⟩ := hstore (clamp i (size l) + 1)
      exact ⟨_, t', _, .down hd ht'⟩
    · refine ⟨_, t, i, .unused (fun heq => ?_) fun heq => ?_⟩
      · exact Nat.eq_zero_of_not_pos fun hd => hup ⟨heq, hd⟩
      · exact Nat.le_of_not_lt fun hd => hdown ⟨heq, hd⟩

variable (hook) (journal) in
theorem Ready.run_items (h : Ready level t l i) :
    ((Var.get (ListBox.items level)).run hook).run ⟨t, journal⟩ = (.ok l, ⟨t, journal⟩) :=
  Var.run_get_of_resolve hook h.items

variable (hook) (journal) in
theorem Ready.run_selected (h : Ready level t l i) :
    ((Var.get (ListBox.selected level)).run hook).run ⟨t, journal⟩ = (.ok i, ⟨t, journal⟩) :=
  Var.run_get_of_resolve hook h.selected

variable (hook) (journal) in
/-- Nothing is made that is there, and the list is shown with the stored index. -/
theorem Ready.run_scene (h : Ready level t l i) :
    ((listBox level).run hook).run ⟨t, journal⟩ =
      (.ok ⟨view l i, withBinding level tag (handler (ListBox.items level)
        (ListBox.selected level))⟩, ⟨t, journal⟩) := by
  have hitems : ((stateAt level itemsName (none : Option Items)).run hook).run ⟨t, journal⟩ =
      (.ok (ListBox.items level), ⟨t, journal⟩) :=
    run_stateAt_of_isSome (by rw [h.items, Option.isSome_some]) none
  have hselected : ((stateAt level selectedName (0 : Nat)).run hook).run ⟨t, journal⟩ =
      (.ok (ListBox.selected level), ⟨t, journal⟩) :=
    run_stateAt_of_isSome (by rw [h.selected, Option.isSome_some]) 0
  have hsubmit : ((stateAt level submitName Submit.silent).run hook).run ⟨t, journal⟩ =
      (.ok ⟨level.child submitName⟩, ⟨t, journal⟩) :=
    run_stateAt_of_isSome h.submit Submit.silent
  rw [listBox, Program.run_bind_of_ok hitems, Program.run_bind_of_ok hselected,
    Program.run_bind_of_ok hsubmit]
  refine (Program.run_bind_of_ok (h.run_items hook journal) _).trans ?_
  -- the selection is read only if there are items
  cases l with
  | none => rfl
  | some l => exact Program.run_bind_of_ok (h.run_selected hook journal) _

theorem Step.run_handler (h : Step level l t i event action t' i') (ht : Ready level t l i) :
    ((handler (items level) (selected level) event).run hook).run ⟨t, journal⟩ =
      (.ok action, ⟨t', journal⟩) := by
  -- both entries are read before anything is decided
  have hread {action : Action} {t' : Tree} {p : Option Items → Nat → Program Action}
      (hp : ((p l i).run hook).run ⟨t, journal⟩ = (.ok action, ⟨t', journal⟩)) :
      ((do
        let l ← (items level).get
        p l (← (selected level).get)).run hook).run ⟨t, journal⟩ =
        (.ok action, ⟨t', journal⟩) :=
    (Program.run_bind_of_ok (ht.run_items hook journal) _).trans
      ((Program.run_bind_of_ok (ht.run_selected hook journal) _).trans hp)
  have hset {j : Nat} {t' : Tree}
      (hstore : t.update (level.child selectedName) (.index j) = .ok t') :
      (((selected level).set j).run hook).run ⟨t, journal⟩ = (.ok (), ⟨t', journal⟩) := by
    have hstore' : t.update (level.child selectedName) (Storable.store j) = .ok t' := hstore
    have hrun := Var.run_set hook ⟨t, journal⟩ (level.child selectedName) j
    rwa [hstore'] at hrun
  cases h with
  | up hd hstore =>
    refine hread ?_
    dsimp only
    rw [if_pos (by simpa [Key.isBare, size] using hd)]
    exact Program.run_bind_of_ok (hset hstore) _
  | down hd hstore =>
    refine hread ?_
    dsimp only
    rw [if_neg (by simp [Key.isBare, Key.bare]), if_pos (by simpa [Key.isBare, size] using hd)]
    exact Program.run_bind_of_ok (hset hstore) _
  | unused hup hdown =>
    cases event with
    | paste starts => rfl
    | resize rows columns => rfl
    | key k =>
      refine hread ?_
      dsimp only
      have hnotUp : ¬ (k.isBare .up && clamp i (l.elim 0 Items.size) > 0) = true := by
        intro hkey
        simp only [Key.isBare, Bool.and_eq_true, decide_eq_true_eq] at hkey
        have hzero : clamp i (l.elim 0 Items.size) = 0 := hup (congrArg Event.key hkey.1)
        omega
      have hnotDown : ¬ (k.isBare .down &&
          clamp i (l.elim 0 Items.size) + 1 < l.elim 0 Items.size) = true := by
        intro hkey
        simp only [Key.isBare, Bool.and_eq_true, decide_eq_true_eq] at hkey
        have hend : l.elim 0 Items.size ≤ clamp i (l.elim 0 Items.size) + 1 :=
          hdown (congrArg Event.key hkey.1)
        omega
      rw [if_neg hnotUp, if_neg hnotDown]
      rfl

/-! ### Runs -/

/-- Steps for events, one after the other, with what is reported for each, and with the index that
is stored before each and after the last one. -/
inductive Run (level : Path) (l : Option Items) :
    Tree → Nat → List Event → List Action → List Nat → Tree → Prop where
  | nil (t : Tree) (i : Nat) : Run level l t i [] [] [i] t
  | cons {t t₁ t' : Tree} {i i₁ : Nat} {event : Event} {action : Action} {events : List Event}
    {actions : List Action} {indices : List Nat} (hstep : Step level l t i event action t₁ i₁)
    (hrun : Run level l t₁ i₁ events actions indices t') :
    Run level l t i (event :: events) (action :: actions) (i :: indices) t'

variable {events : List Event} {actions : List Action} {indices : List Nat} {m : Tree}

/-- A selection in the list stays there. -/
theorem Run.forall_lt (h : Run level l t i events actions indices t') (hi : i < size l) :
    ∀ j ∈ indices, j < size l := by
  induction h with
  | nil => simpa using hi
  | cons hstep _ ih => exact List.forall_mem_cons.2 ⟨hi, ih (hstep.lt hi)⟩

variable (journal) in
/-- A list box takes a step for each of any events, and shows every index on the way. -/
theorem Ready.exists_run_play (h : Ready level t l i) (events : List Event) :
    ∃ actions indices t', Run level l t i events actions indices t' ∧
      ((listBox.play level events).run none).run ⟨t, journal⟩ =
        (.ok (actions, indices.map fun j => t.shownAt level (view l j)), ⟨t', journal⟩) := by
  induction events generalizing t i with
  | nil =>
    have hinvoke := Component.run_invoke (h.run_scene none journal)
    exact ⟨[], [i], t, .nil t i, Component.run_play_nil hinvoke⟩
  | cons event events ih =>
    have hinvoke := Component.run_invoke (h.run_scene none journal)
    obtain ⟨action, t₁, i₁, hstep⟩ := h.exists_step event
    obtain ⟨actions, indices, t', hrun, hplay⟩ := ih (hstep.ready h)
    have hhandler : ((withBinding level tag (handler (ListBox.items level)
        (ListBox.selected level)) event).run none).run ⟨t, journal⟩ =
        (.ok action, ⟨t₁, journal⟩) := by
      rw [run_withBinding]
      exact hstep.run_handler h
    -- no event touches the message of a failed hook
    have hshown (v : View) : t₁.shownAt level v = t.shownAt level v :=
      hstep.sameBeside.shownAt_eq (by decide) v
    simp only [hshown] at hplay
    exact ⟨_, _, t', .cons hstep hrun, Component.run_play_cons hinvoke hhandler hplay⟩

/-! ### From the start -/

/-- The names of the entries of a list box. -/
def entryNames : Set Name := {itemsName, selectedName, submitName}

theorem Configured.ready (h : Configured m l i)
    (ht : t.resolve level = some (.map (m.withDefaults initialEntries))) : Ready level t l i where
  items := by rw [Tree.resolve_child ht, h.items]
  selected := by rw [Tree.resolve_child ht, h.selected]
  submit := by
    rw [Tree.resolve_child ht, Tree.get?_withDefaults]
    cases m.get? submitName <;> rfl

/-- Over any events, a list box does what it would do if its entries had been made before. -/
theorem Configured.exists_ready (h : Configured m l i) (ht : t.resolve level = some (.map m))
    (journal : List JournalEntry) :
    ∃ t₁, t.SameBeside level entryNames t₁ ∧ Ready level t₁ l i ∧
      ∀ events, ((listBox.play level events).run none).run ⟨t, journal⟩ =
        ((listBox.play level events).run none).run ⟨t₁, journal⟩ := by
  obtain ⟨t₁, hscene, ht₁, hsame⟩ := (h.leads_scene none level).exists_run journal ht
  have hready : Ready level t₁ l i := h.ready ht₁
  refine ⟨t₁, hsame.beside_of_get? ht ht₁ fun key hkey => ?_, hready, fun events => ?_⟩
  · simp only [entryNames, Set.mem_insert_iff, Set.mem_singleton_iff, not_or, Name.ext_iff] at hkey
    have hlookup : initialEntries.lookup key.text = none := by
      simp [List.lookup_eq_none_iff, initialEntries, hkey]
    rw [Tree.get?_withDefaults, hlookup, Option.or_none]
  · -- from either tree, the first scene is the same and leaves the same tree
    have hfirst : (listBox level).Indifferent none ⟨t, journal⟩ ⟨t₁, journal⟩ :=
      hscene.trans (hready.run_scene none journal).symm
    exact play_indifferent hfirst events

/-- **The selection moves within the list, and is what is shown.** At any place without a hook,
whatever the list and the stored index, a list box takes a step for each of any events, and shows
every index on the way, unless there is the message of a failed hook; a selection in the list stays
there. The view for an index has the items below each other as each of them is laid out by itself,
the one that the steps go from in inverse and with the dot at its start. -/
theorem selection_is_shown :
    (∀ {level : Path} {t m : Tree} {l : Option Items} {i : Nat}, t.Offers level m →
      Configured m l i → ∀ events journal, ∃ t₁ actions indices t',
        t.SameBeside level entryNames t₁ ∧ Ready level t₁ l i ∧
        Run level l t₁ i events actions indices t' ∧
        (i < size l → ∀ j ∈ indices, j < size l) ∧
        Blueprint.listBox.playAt level events ⟨t, journal⟩ =
          (.ok (actions, indices.map fun j => t.shownAt level (view l j)), ⟨t', journal⟩)) ∧
    (∀ (l : Items) (i : Nat), l.shown ≠ [] →
      ∃ before item after, l.shown = before ++ item :: after ∧
        before.length = clamp i (size (some l)) ∧
        ∀ width height,
          (view (some l) i).render width height =
            (frameOf width before item after).trim 0 height ∧
          ((frameOf width before item after).lines.length ≤ height →
            (view (some l) i).render width height = frameOf width before item after)) ∧
    ∀ (t : StyledText) (width height : Nat),
      ((View.styled t).render width height).lines = (t.layout width).take height := by
  refine ⟨?_, fun l i hne => exists_render_view hne i, StyledText.lines_render_styled⟩
  intro level t m l i hoffers hconfigured events journal
  obtain ⟨t₀, ht₀, hsame₀, hplay₀⟩ := hoffers.exists_playAt (b := .listBox) (.inr (.inl rfl))
  obtain ⟨t₁, hsame₁, hready, hplay₁⟩ := hconfigured.exists_ready ht₀ journal
  obtain ⟨actions, indices, t', hrun, hplay⟩ := hready.exists_run_play journal events
  have hsame : t.SameBeside level entryNames t₁ :=
    (hsame₀.mono (Set.empty_subset _)).trans hsame₁
  refine ⟨t₁, actions, indices, t', hsame, hready, hrun, hrun.forall_lt, ?_⟩
  have hshown (v : View) : t₁.shownAt level v = t.shownAt level v :=
    hsame.shownAt_eq (by simp [entryNames, itemsName, selectedName, submitName, errorName]) v
  simp only [hshown] at hplay
  rw [hplay₀]
  exact (hplay₁ events).trans hplay

/-- Three items, of which one is empty and one has a line break. -/
def threeItems : Items := .ofStrings ["one", "", "a\nb"]

/-- An index past the end of the list, in a map beside a number. -/
def stale : Tree :=
  .ofList [("p", .map (.ofList [(itemsName, .items (some threeItems)), (selectedName, .index 7)])),
    ("x", .integer 0)]

theorem selection_is_shown_stale :
    (∃ t₁ actions indices t', stale.SameBeside (.ofList ["p"]) entryNames t₁ ∧
        Ready (.ofList ["p"]) t₁ (some threeItems) 7 ∧
        Run (.ofList ["p"]) (some threeItems) t₁ 7 [.key (.bare .up), .key (.bare .left)] actions
          indices t' ∧
        (7 < size (some threeItems) → ∀ j ∈ indices, j < size (some threeItems)) ∧
        Blueprint.listBox.playAt (.ofList ["p"]) [.key (.bare .up), .key (.bare .left)]
            ⟨stale, []⟩ =
          (.ok (actions, indices.map fun j =>
            stale.shownAt (.ofList ["p"]) (view (some threeItems) j)), ⟨t', []⟩)) ∧
    ∃ before item after, threeItems.shown = before ++ item :: after ∧
      before.length = clamp 7 (size (some threeItems)) ∧
      ∀ width height,
        (view (some threeItems) 7).render width height =
          (frameOf width before item after).trim 0 height ∧
        ((frameOf width before item after).lines.length ≤ height →
          (view (some threeItems) 7).render width height = frameOf width before item after) := by
  have hlevel : stale.resolve (.ofList ["p"]) = some (.map (.ofList [
      (itemsName, .items (some threeItems)), (selectedName, .index 7)])) := rfl
  have hconfigured : Configured (.ofList [
      (itemsName, .items (some threeItems)), (selectedName, .index 7)]) (some threeItems) 7 := by
    constructor <;> rfl
  exact ⟨selection_is_shown.1 (.inl hlevel) hconfigured _ [],
    selection_is_shown.2.1 threeItems 7 (by decide)⟩

end ListBox

end TerminalUI
