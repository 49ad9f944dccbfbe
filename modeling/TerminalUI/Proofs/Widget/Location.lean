import TerminalUI.Proofs.Demo.Portable
import TerminalUI.Proofs.Program.Steps
import TerminalUI.Proofs.State.Growth

/-!
# Widgets at any place

A widget without a hook runs at a level of a larger tree as it runs at the root of the tree that is
there: `Correspondence.relocated` takes a session to be like another one whose tree is the map at
the level, as long as nothing has changed beside the level. A write below the level succeeds in one
of the two trees if it does in the other (`Tree.exists_update_append`, `Tree.Obstructs.append`).

Where nothing is at the level yet, the first write of the widget makes the map, as if an empty one
had been there (`Program.Indifferent`).

A combo box runs whatever component is kept in the place of its filter or its list. One that names
places by their paths from the root, as a button may, is not bound to the level
(`play_button_in_combo_box`).

* `play_location` : **a widget does the same at every place, and changes nothing beside it**, for a
  combo box if what is kept in it names no places.
-/

namespace TerminalUI

namespace Component

/-- The component shown, and given events one after the other. -/
def play (c : Component) (level : Path) : List Event → Program (List Action × List View)
  | [] => do
    let scene ← c.invoke level
    return ([], [scene.view])
  | event :: rest => do
    let scene ← c.invoke level
    let action ← scene.handler event
    let (actions, views) ← c.play level rest
    return (action :: actions, scene.view :: views)

end Component

/-! ### Writing below a level -/

namespace Tree

variable {t m m' : Tree} {level p q : Path} {v w : Value}

theorem resolve_append (ht : t.resolve level = some (.map m)) (p : Path) :
    t.resolve (level ++ p) = m.resolve p := by
  rw [resolve, Path.segments_append, resolveFrom_append, ← resolve, ht, Option.bind_some, resolve]

/-- A write to the map at a level is a write to the tree. -/
theorem exists_update_append (ht : t.resolve level = some (.map m)) (hm : m.update p v = .ok m') :
    ∃ t', t.update (level ++ p) v = .ok t' ∧ t'.resolve level = some (.map m') ∧
      SameOutside level t t' := by
  have hput : Value.Put v (.map m) p.segments (.map m') := update_eq_ok_iff.mp hm
  obtain ⟨t', hupdate, hresolve, hsame⟩ :=
    updateBelow_append [] p.segments v ht (updateBelow_of_put _ hput)
  exact ⟨t', hupdate, hresolve, fun p => hsame p.segments⟩

/-- What is in the way in the map at a level is in the way in the tree. -/
theorem Obstructs.append (ht : t.resolve level = some (.map m)) (h : m.Obstructs p q w) :
    t.Obstructs (level ++ p) (level ++ q) w where
  above := List.prefix_append_right_inj level.segments |>.mpr h.above
  ne_root := Path.append_ne_root level h.ne_root
  ne := by
    intro heq
    have hsegments := List.append_cancel_left (congrArg Path.segments heq)
    exact h.ne (Path.ext hsegments)
  found := (resolve_append ht q).trans h.found
  leaf := h.leaf

end Tree

/-- A value can be put below an empty map that was put where nothing was, as it can without it. -/
theorem Value.Put.put_below {v u u' u'' : Value} {names rest : List String}
    (h : Put (.map .empty) u names u') (hfree : Tree.resolveFrom u names = none)
    (hv : Put v u (names ++ rest) u'') : Put v u' (names ++ rest) u'' := by
  induction h generalizing u'' with
  | here u => cases hfree
  | @inside t name names u hput ih =>
    cases hv with
    | @inside _ _ _ u₂ hv =>
      have hchild : (t.insert name u).childAt name = u := Tree.childAt_insert_self t name u
      rw [← Tree.insert_insert t name u u₂]
      refine .inside ?_
      rw [hchild]
      cases names with
      | nil =>
        -- nothing is under the name, which counts as an empty map
        have hnone : t.get? name = none := by
          cases hget : t.get? name with
          | none => rfl
          | some w => simp [hget, Tree.resolveFrom] at hfree
        have hempty : t.childAt name = .map .empty := by rw [Tree.childAt, hnone, Option.getD_none]
        have hu : u = .map .empty := Option.some.inj hput.resolveFrom_self
        rwa [hu, ← hempty]
      | cons next names =>
        refine ih ?_ hv
        rwa [Tree.resolveFrom_childAt t name (List.cons_ne_nil next names)]

namespace Tree

variable {t t₀ : Tree} {level : Path} {name : Name}

theorem resolve_child_of_update_empty (ht : t.update level (.map .empty) = .ok t₀) :
    t₀.resolve (level.child name) = none := by
  have hresolve : t₀.resolve level = some (.map .empty) :=
    (update_eq_ok_iff.mp ht).resolveFrom_self
  rw [resolve_child hresolve]
  rfl

/-- Where nothing is at a level, an entry can be written below it as below an empty map. -/
theorem update_child_of_update_empty (hfree : t.resolve level = none)
    (ht : t.update level (.map .empty) = .ok t₀) (v : Value) :
    ∃ t', t.update (level.child name) v = .ok t' ∧ t₀.update (level.child name) v = .ok t' := by
  have hput := update_eq_ok_iff.mp ht
  have hlevel : t₀.resolve level = some (.map .empty) := hput.resolveFrom_self
  rcases exists_put_or_obstructs t (level.child name) v with
    ⟨t', hput'⟩ | ⟨hroot, -⟩ | ⟨q, w, hq⟩
  · refine ⟨t', update_eq_ok_iff.mpr hput', update_eq_ok_iff.mpr ?_⟩
    rw [Path.segments_child] at hput' ⊢
    exact hput.put_below hfree hput'
  · exact absurd hroot (Path.child_ne_root level name)
  · -- what is in the way of the entry is in the way of the level, where an empty map was written
    rcases Path.prefix_or_eq_of_prefix_child hq.above with habove | heq
    · have hne : q ≠ level := by
        rintro rfl
        rw [hq.found] at hfree
        cases hfree
      have hobstructs : t.Obstructs level q w := ⟨habove, hq.ne_root, hne, hq.found, hq.leaf⟩
      rw [hobstructs.update_eq_error] at ht
      cases ht
    · exact absurd heq hq.ne

end Tree

/-- From two sessions, the program runs in the same way. -/
def Program.Indifferent {α : Type} (hook : Option Hook) (s s₀ : Session) (p : Program α) : Prop :=
  (p.run hook).run s = (p.run hook).run s₀

namespace Program

variable {α β : Type} {hook : Option Hook} {s s₀ : Session}

theorem Indifferent.bind {p : Program α} (h : Indifferent hook s s₀ p) (f : α → Program β) :
    Indifferent hook s s₀ (p >>= f) := by
  rw [Indifferent]
  rcases hp : (p.run hook).run s with ⟨_ | a, s'⟩
  · rw [run_bind_of_error hp, run_bind_of_error (h.symm.trans hp)]
  · rw [run_bind_of_ok hp, run_bind_of_ok (h.symm.trans hp)]

/-- Where nothing is at the level, an empty map makes no difference to a variable of the level. -/
theorem Indifferent.stateAt [Storable α] {level : Path} {name : Name}
    (hfree : s.tree.resolve level = none) {t₀ : Tree}
    (ht : s.tree.update level (.map .empty) = .ok t₀) (initial : α) :
    Indifferent hook s { s with tree := t₀ } (stateAt level name initial) := by
  have hnone : s.tree.resolve (level.child name) = none :=
    Tree.resolve_child_of_resolve_eq_none hfree
  have hnone₀ : t₀.resolve (level.child name) = none := Tree.resolve_child_of_update_empty ht
  obtain ⟨t', hupdate, hupdate₀⟩ :=
    Tree.update_child_of_update_empty hfree ht (Storable.store initial)
  rw [Indifferent, run_stateAt_of_eq_none hnone, run_stateAt_of_eq_none hnone₀, hupdate, hupdate₀]

end Program

/-! ### A session in the place of another one -/

/-- The trees that hold, under some names, no other maps than such with components of a sort. -/
def Tree.Guarded (names : List String) (sort : Blueprint → Bool) (m : Tree) : Prop :=
  ∀ name ∈ names, ∀ c, m.get? name = some (.map c) → c.keepsOnly sort = true

theorem Tree.Guarded.insert {names : List String} {sort : Blueprint → Bool} {m : Tree}
    (h : m.Guarded names sort) {name : String} {v : Value}
    (hv : name ∈ names → ∀ c, v = .map c → c.keepsOnly sort = true) :
    (m.insert name v).Guarded names sort := by
  intro other hother c hc
  rw [get?_insert] at hc
  split at hc
  · rename_i heq
    subst heq
    exact hv hother c (Option.some.inj hc)
  · exact h other hother c hc

namespace Correspondence

/-- A session whose tree holds at a level the tree of another session. Beside the level it is still
the tree from before, and the maps under some names hold components of one sort only. -/
def relocated (level : Path) (before : Tree) (names : List String) (sort : Blueprint → Bool) :
    Correspondence where
  sessions s s' := s.tree.resolve level = some (.map s'.tree) ∧
    Tree.SameOutside level before s.tree ∧ s'.tree.Guarded names sort
  levels _ _ := True
  faults _ _ := True
  faults_refl _ := trivial

variable {level p : Path} {before : Tree} {guarded : List String} {sort : Blueprint → Bool}
  {kept : Value → Prop} {name : Name}

/-- Entries below the level, as long as what is kept in them is as it has to be. -/
theorem slot_relocated (hp : p ≠ .root)
    (hheld : ∀ (m : Tree) v, m.Guarded guarded sort → m.resolve p = some v → kept v)
    (hput : ∀ (m m' : Tree) v, m.Guarded guarded sort → kept v → m.update p v = .ok m' →
      m'.Guarded guarded sort) :
    (relocated level before guarded sort).Slot kept (level ++ p) p where
  resolve hs := Tree.resolve_append hs.1 p
  held := by
    intro s s' v hs hv
    rw [Tree.resolve_append hs.1] at hv
    exact hheld _ _ hs.2.2 hv
  update := by
    intro s s' v ⟨hlevel, hsame, hguarded⟩ hv
    cases hm : s'.tree.update p v with
    | ok m' =>
      obtain ⟨t', hupdate, hlevel', hsame'⟩ := Tree.exists_update_append hlevel hm
      rw [hupdate]
      exact .ok ⟨hlevel', hsame.trans hsame', hput _ _ _ hguarded hv hm⟩
    | error e =>
      rcases Tree.update_eq_error_iff.mp hm with ⟨hroot, -⟩ | ⟨q, w, hq, -⟩
      · exact absurd hroot hp
      · rw [(hq.append hlevel).update_eq_error]
        exact .error trivial
  faults _ := trivial

/-- Without names that are guarded, all entries correspond. -/
theorem at_relocated (level : Path) (before : Tree) :
    (relocated level before [] fun _ => true).At (fun _ => true) level .root where
  levels _ := trivial
  slot _ hp := slot_relocated hp (fun _ v _ _ => v.keepsOnly_true)
    fun _ _ _ _ _ _ _ hname => absurd hname List.not_mem_nil

/-- An entry of the level that is not guarded. -/
theorem slot_relocated_own (hfree : name.text ∉ guarded) :
    (relocated level before guarded sort).Slot (fun _ => True) (level.child name)
      (Path.root.child name) := by
  refine slot_relocated (Path.ofList_singleton_ne_root name) (fun _ _ _ _ => trivial) ?_
  intro m m' v hm _ hupdate
  obtain ⟨t', ht', hlevel, -⟩ := Tree.update_child (Tree.resolve_root m) v
  obtain rfl : t' = m' := Except.ok.inj (ht'.symm.trans hupdate)
  cases hlevel
  exact hm.insert fun hmem => absurd hmem hfree

/-- An entry of the level that is guarded. -/
theorem slot_relocated_guarded (hmem : name.text ∈ guarded) :
    (relocated level before guarded sort).Slot (fun v => ∀ c, v = .map c → c.keepsOnly sort = true)
      (level.child name) (Path.root.child name) := by
  refine slot_relocated (Path.ofList_singleton_ne_root name) ?_ ?_
  · rintro m _ hm hv c rfl
    exact hm name hmem c ((Tree.resolve_child (Tree.resolve_root m)).symm.trans hv)
  · intro m m' v hm hv hupdate
    obtain ⟨t', ht', hlevel, -⟩ := Tree.update_child (Tree.resolve_root m) v
    obtain rfl : t' = m' := Except.ok.inj (ht'.symm.trans hupdate)
    cases hlevel
    exact hm.insert fun _ => hv

/-- Below a guarded entry, there are components of the sort only. -/
theorem at_relocated_guarded (hmem : name.text ∈ guarded) :
    (relocated level before guarded sort).At sort (level.child name) (Path.root.child name) where
  levels _ := trivial
  slot p hp := by
    have hsegments : (Path.ofList [name.text] ++ p).segments = name.text :: p.segments := by
      rw [Path.segments_append, Path.segments_ofList_singleton, List.singleton_append]
    have hnil : p.segments ≠ [] := fun hnil => hp (Path.ext hnil)
    rw [Path.child_append level]
    refine slot_relocated (Path.append_ne_root _ hp) ?_ ?_
    · intro m v hm hv
      rw [Tree.resolve, hsegments, Tree.resolveFrom_cons] at hv
      obtain ⟨child, hchild, hv⟩ := Option.bind_eq_some_iff.mp hv
      generalize p.segments = rest at hnil hv
      cases rest with
      | nil => exact absurd rfl hnil
      | cons next rest =>
        obtain ⟨c, -, rfl, -⟩ := Tree.exists_map_of_resolveFrom_cons hv
        have hc : (Value.map c).keepsOnly sort = true := hm name hmem c hchild
        exact Tree.keepsOnly_of_resolveFrom hc hv
    · intro m m' v hm hv hupdate
      have hput := Tree.update_eq_ok_iff.mp hupdate
      rw [hsegments] at hput
      generalize p.segments = rest at hnil hput
      cases hput with
      | @inside _ _ _ u hput =>
        refine hm.insert fun _ c hc => ?_
        subst hc
        cases rest with
        | nil => exact absurd rfl hnil
        | cons next rest =>
          have hchild : (m.childAt name).keepsOnly sort = true := by
            cases hget : m.get? name with
            | none => rw [Tree.childAt, hget]; rfl
            | some w =>
              rw [Tree.childAt, hget, Option.getD_some] at hput ⊢
              cases hput with
              | inside => exact hm name hmem _ hget
          have hc : (Value.map c).keepsOnly sort = true := hput.keepsOnly hv hchild
          exact hc

end Correspondence

/-! ### Components that name no places -/

/-- Does the component leave all places alone that are not at its level or below? A button may be
told of any place, and counters and forms tell theirs to the buttons inside them. -/
def Blueprint.isLocal : Blueprint → Bool
  | .button | .counter | .flight => false
  | .stack _ _ parts => parts.named
  | .seeded path _ _ => !path.isRoot
  | _ => true

theorem Blueprint.closed_isLocal (C : Correspondence) : Blueprint.Closed C isLocal where
  codeArea := rfl
  listBox := rfl
  blank := rfl
  field prompt := by
    have hpath : !(Path.ofString CodeArea.promptName).isRoot := by decide +kernel
    simpa [field, styledField, withStates, keepsOnly, isLocal, Value.keepsOnly] using hpath
  list l := by
    have hpath : !(Path.ofString ListBox.itemsName).isRoot := by decide +kernel
    simpa [withStates, keepsOnly, isLocal, Value.keepsOnly] using hpath
  made _ _ := rfl
  named _ _ _ h := h
  below path v b h := by
    intro hnil
    simp [isLocal, Path.isRoot, Path.root, hnil] at h
  onePlace h := by
    rcases h with h | h | h <;> cases h

/-! ### Widgets -/

variable {C : Correspondence} {level level' : Path} {events : List Event}

/-- Played at two levels, a component does the same, if it is alike there. -/
theorem play_alike {c : Component} (hc : (c.invoke level).Alike C (Scene.Alike C) (c.invoke level'))
    (events : List Event) : (c.play level events).Alike C Eq (c.play level' events) := by
  induction events with
  | nil =>
    refine hc.bind fun scene scene' hscene => .pure ?_
    rw [hscene.view]
  | cons event rest ih =>
    refine hc.bind fun scene scene' hscene => ?_
    refine (hscene.handler event).bind_eq fun action => ?_
    refine ih.bind_eq fun r => .pure ?_
    rw [hscene.view]

/-- What is first done by a component is first done when it is played. -/
theorem play_indifferent {hook : Option Hook} {s s₀ : Session} {c : Component}
    (hc : (c level).Indifferent hook s s₀) (events : List Event) :
    (c.play level events).Indifferent hook s s₀ := by
  have hinvoke : (c.invoke level).Indifferent hook s s₀ := hc.bind _
  cases events with
  | nil => exact hinvoke.bind _
  | cons event rest => exact hinvoke.bind _

/-- The entries of a combo box that hold components. -/
def ComboBox.innerNames : List String := [filterName.text, listName.text]

open Correspondence in
theorem comboBox_relocated (level : Path) (before : Tree) :
    ComboBox.Alike (relocated level before ComboBox.innerNames Blueprint.isLocal)
      (fun _ => True) (fun v => ∀ c, v = .map c → c.keepsOnly Blueprint.isLocal = true)
      Blueprint.isLocal level .root where
  levels := trivial
  generator := slot_relocated_own (by decide)
  lastFilter := slot_relocated_own (by decide)
  filter := slot_relocated_guarded (by decide)
  list := slot_relocated_guarded (by decide)
  atFilter := at_relocated_guarded (by decide)
  atList := at_relocated_guarded (by decide)
  own_nothing := trivial
  own_string _ := trivial
  inner_empty := by
    rintro c ⟨⟩
    rfl

/-- The widgets. -/
def Blueprint.IsWidget (b : Blueprint) : Prop := b = .codeArea ∨ b = .listBox ∨ b = .comboBox

/-- The tree can be moved for a component: a combo box runs the components that are kept inside, and
these may name no places of their own. -/
def Blueprint.Bounded (b : Blueprint) (m : Tree) : Prop :=
  b = .comboBox → m.Guarded ComboBox.innerNames Blueprint.isLocal

/-- Runs a component at a level, without a hook. -/
def Blueprint.playAt (b : Blueprint) (level : Path) (events : List Event) (s : Session) :
    Except Fault (List Action × List View) × Session :=
  ((b.start.play level events).run none).run s

/-- Where the tree at the level is there, a widget does the same as at the root of that tree. -/
theorem playAt_of_resolve {b : Blueprint} (hb : b.IsWidget) {t m : Tree}
    (ht : t.resolve level = some (.map m)) (hm : b.Bounded m) (events : List Event)
    (journal journal' : List JournalEntry) :
    (b.playAt level events ⟨t, journal⟩).1.toOption =
        (b.playAt .root events ⟨m, journal'⟩).1.toOption ∧
      (b.playAt level events ⟨t, journal⟩).2.tree.resolve level =
        some (.map (b.playAt .root events ⟨m, journal'⟩).2.tree) ∧
      Tree.SameOutside level t (b.playAt level events ⟨t, journal⟩).2.tree := by
  obtain ⟨names, sort, hguarded, hinvoke⟩ : ∃ names sort, m.Guarded names sort ∧
      (b.start.invoke level).Alike (.relocated level t names sort)
        (Scene.Alike (.relocated level t names sort)) (b.start.invoke .root) := by
    rcases hb with rfl | rfl | rfl
    · have hat := Correspondence.at_relocated level t
      refine ⟨[], fun _ => true, fun _ hname => absurd hname List.not_mem_nil, ?_⟩
      exact (hat.entry errorName).invoke (codeArea_portable level .root hat)
    · have hat := Correspondence.at_relocated level t
      refine ⟨[], fun _ => true, fun _ hname => absurd hname List.not_mem_nil, ?_⟩
      exact (hat.entry errorName).invoke (listBox_portable level .root hat)
    · let C := Correspondence.relocated level t ComboBox.innerNames Blueprint.isLocal
      have hclosed : Blueprint.Closed C Blueprint.isLocal := Blueprint.closed_isLocal C
      have herror : C.Slot (fun _ => True) (level.child errorName) (Path.root.child errorName) :=
        Correspondence.slot_relocated_own (by decide)
      refine ⟨_, _, hm rfl, herror.invoke (ComboBox.alike (comboBox_relocated level t) ?_ rfl rfl)⟩
      exact fun b hb => Blueprint.component_portable hclosed _ hb
  have hsessions :
      (Correspondence.relocated level t names sort).sessions ⟨t, journal⟩ ⟨m, journal'⟩ :=
    ⟨ht, .refl level t, hguarded⟩
  obtain ⟨houtcome, hlevel, hsame, -⟩ :=
    (play_alike hinvoke events _ _ hsessions).outcome (Correspondence.hooked_none _)
  refine ⟨?_, hlevel, hsame⟩
  unfold Blueprint.playAt
  generalize (((b.start.play level events).run none).run ⟨t, journal⟩).1 = r at houtcome ⊢
  generalize (((b.start.play .root events).run none).run ⟨m, journal'⟩).1 = r' at houtcome ⊢
  cases houtcome with
  | ok h => rw [h]
  | error => rfl

theorem playAt_of_resolve_eq_none {b : Blueprint} (hb : b.IsWidget) {t t₀ : Tree}
    (hfree : t.resolve level = none) (ht : t.update level (.map .empty) = .ok t₀)
    (events : List Event) (journal : List JournalEntry) :
    b.playAt level events ⟨t, journal⟩ = b.playAt level events ⟨t₀, journal⟩ := by
  have hstateAt {α : Type} [Storable α] {name : Name} (initial : α) :
      (stateAt level name initial).Indifferent none ⟨t, journal⟩ ⟨t₀, journal⟩ :=
    .stateAt hfree ht initial
  refine play_indifferent ?_ events
  rcases hb with rfl | rfl | rfl
  · exact ((((hstateAt _).bind _).bind _).bind _)
  · exact (hstateAt _).bind _
  · exact (hstateAt _).bind _

/-- The tree has a map at the level, or nothing is there and no leaf in the way of an empty one. -/
def Tree.Offers (t : Tree) (level : Path) (m : Tree) : Prop :=
  t.resolve level = some (.map m) ∨
    t.resolve level = none ∧ (∀ q w, ¬ t.Obstructs level q w) ∧ m = .empty

/-- A widget runs as if the map that is offered had been there. -/
theorem Tree.Offers.exists_playAt {b : Blueprint} (hb : b.IsWidget) {t m : Tree}
    (h : t.Offers level m) :
    ∃ t₀ : Tree, t₀.resolve level = some (.map m) ∧ t.SameBeside level ∅ t₀ ∧
      ∀ events journal,
        b.playAt level events ⟨t, journal⟩ = b.playAt level events ⟨t₀, journal⟩ := by
  rcases h with ht | ⟨hfree, hclear, rfl⟩
  · exact ⟨t, ht, .refl level ∅ t, fun _ _ => rfl⟩
  · rcases Tree.exists_put_or_obstructs t level (.map .empty) with
      ⟨t₀, hput⟩ | ⟨-, hleaf⟩ | ⟨q, w, hq⟩
    · have ht₀ : t₀.resolve level = some (.map .empty) := hput.resolveFrom_self
      refine ⟨t₀, ht₀, fun q habove _ => ?_, playAt_of_resolve_eq_none hb hfree
        (Tree.update_eq_ok_iff.mpr hput)⟩
      by_cases hbelow : level.segments <+: q.segments
      · -- the map is empty, so there is nothing below it either
        obtain ⟨rest, hrest⟩ := hbelow
        rw [Tree.resolve_eq_none_below ⟨rest, hrest⟩ hfree, Tree.resolve, ← hrest,
          Tree.resolveFrom_append, ← Tree.resolve, ht₀, Option.bind_some]
        cases rest with
        | nil => exact absurd (by simp [← hrest]) habove
        | cons name rest => rfl
      · exact hput.resolveFrom_of_not_prefix hbelow habove
    · cases hleaf
    · exact absurd hq (hclear q w)

/-- **A widget does the same at every place.** Without a hook, at a level that holds a map, or at
which nothing is and no leaf is in the way, a code area, a list box or a combo box gives the actions
and shows the views that it does at the root of that map, over any events; it leaves at the level
the tree that it leaves there, and nothing has changed beside the level. It faults at the level if
it does at the root. A combo box runs the components that it finds in its own tree, and these must
not name places outside their levels. -/
theorem play_location {b : Blueprint} (hb : b.IsWidget) {level : Path} {t m : Tree}
    (hm : t.resolve level = some (.map m) ∨
      t.resolve level = none ∧ (∀ q w, ¬ t.Obstructs level q w) ∧ m = .empty)
    (hbounded : b.Bounded m) (events : List Event) (journal journal' : List JournalEntry) :
    (b.playAt level events ⟨t, journal⟩).1.toOption =
        (b.playAt .root events ⟨m, journal'⟩).1.toOption ∧
      (b.playAt level events ⟨t, journal⟩).2.tree.resolve level =
        some (.map (b.playAt .root events ⟨m, journal'⟩).2.tree) ∧
      Tree.SameOutside level t (b.playAt level events ⟨t, journal⟩).2.tree := by
  rcases hm with ht | ⟨hfree, hclear, rfl⟩
  · exact playAt_of_resolve hb ht hbounded events journal journal'
  · rcases Tree.exists_put_or_obstructs t level (.map .empty) with
      ⟨t₀, hput⟩ | ⟨-, hleaf⟩ | ⟨q, w, hq⟩
    · have ht := Tree.update_eq_ok_iff.mpr hput
      have hlevel : t₀.resolve level = some (.map .empty) := hput.resolveFrom_self
      have hsame : Tree.SameOutside level t t₀ := fun q => hput.resolveFrom_of_not_prefix
      obtain ⟨hresults, hresolve, hsame'⟩ :=
        playAt_of_resolve hb hlevel hbounded events journal journal'
      rw [playAt_of_resolve_eq_none hb hfree ht]
      exact ⟨hresults, hresolve, hsame.trans hsame'⟩
    · cases hleaf
    · exact absurd hq (hclear q w)

/-- A combo box in a tree with other entries, that keeps a to-do list in the place of its list. -/
theorem play_location_combo_box :
    let m : Tree := .ofList [("list", .map (.ofList [("-comp", .component .todo)]))]
    let t : Tree := .ofList [("p", .map m), ("x", .integer 0)]
    let events : List Event := [.key (.typed 'a'), .key { code := .tab }, .paste true]
    Blueprint.IsWidget .comboBox ∧ t.resolve (.ofList ["p"]) = some (.map m) ∧
      Blueprint.Bounded .comboBox m ∧
      (Blueprint.comboBox.playAt (.ofList ["p"]) events ⟨t, []⟩).1.toOption =
        (Blueprint.comboBox.playAt .root events ⟨m, []⟩).1.toOption ∧
      (Blueprint.comboBox.playAt (.ofList ["p"]) events ⟨t, []⟩).2.tree.resolve (.ofList ["p"]) =
        some (.map (Blueprint.comboBox.playAt .root events ⟨m, []⟩).2.tree) ∧
      Tree.SameOutside (.ofList ["p"]) t
        (Blueprint.comboBox.playAt (.ofList ["p"]) events ⟨t, []⟩).2.tree := by
  intro m t events
  have hwidget : Blueprint.IsWidget .comboBox := .inr (.inr rfl)
  have ht : t.resolve (.ofList ["p"]) = some (.map m) := rfl
  have hbounded : Blueprint.Bounded .comboBox m := by
    intro _ name hname c hc
    simp only [ComboBox.innerNames, List.mem_cons, List.not_mem_nil, or_false] at hname
    rcases hname with rfl | rfl
    · cases hc
    · cases hc
      rfl
  exact ⟨hwidget, ht, hbounded, play_location hwidget (.inl ht) hbounded events [] []⟩

/-- A combo box that keeps a button in the place of its filter. A press adds one to a number that is
given by its path from the root. -/
def ComboBox.withButton : Tree :=
  .ofList [
    ("filter", .map (.ofList [
      ("-comp", .component .button),
      ("buffer", .buffer {}),
      ("on-press", .press (.change (some (.ofList ["x"])) 1 .consumed))])),
    ("x", .integer 0)]

/-- **A button in the place of the filter is not bound to the level**: at the level `p` it counts
the number at the root, and leaves the one at `p` alone that it counts when `p` is the root. -/
theorem play_button_in_combo_box :
    let t : Tree := .ofList [("p", .map ComboBox.withButton), ("x", .integer 0)]
    let r := Blueprint.comboBox.playAt (.ofList ["p"]) [.key (.typed ' ')] ⟨t, []⟩
    let r' := Blueprint.comboBox.playAt .root [.key (.typed ' ')] ⟨ComboBox.withButton, []⟩
    t.resolve (.ofList ["p"]) = some (.map ComboBox.withButton) ∧ r.1.isOk ∧ r'.1.isOk ∧
      r.2.tree.resolve (.ofList ["p"]) ≠ some (.map r'.2.tree) ∧
      ¬ Tree.SameOutside (.ofList ["p"]) t r.2.tree := by
  intro t r r'
  let count (t : Tree) (p : Path) : Option Int := (t.resolve p).bind Storable.load?
  have houter : count r.2.tree (.ofList ["x"]) = some 1 := by decide +kernel
  have hinner : count r.2.tree (.ofList ["p", "x"]) = some 0 := by decide +kernel
  have hroot : count r'.2.tree (.ofList ["x"]) = some 1 := by decide +kernel
  refine ⟨rfl, by decide +kernel, by decide +kernel, fun h => ?_, fun h => ?_⟩
  · have hjoin : r.2.tree.resolve (.ofList ["p", "x"]) = r'.2.tree.resolve (.ofList ["x"]) :=
      Tree.resolve_append h (.ofList ["x"])
    simp only [count, hjoin] at hinner hroot
    rw [hinner] at hroot
    cases hroot
  · have hsame : r.2.tree.resolve (.ofList ["x"]) = t.resolve (.ofList ["x"]) :=
      h _ (by decide) (by decide)
    simp only [count, hsame] at houter
    cases houter

end TerminalUI
