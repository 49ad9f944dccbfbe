import TerminalUI.Proofs.Program.Steps
import TerminalUI.Proofs.State.Growth

/-!
# Programs that settle

A component that makes a scene may write to the tree: variables are set when they are missing, seeds
are put, and a first list is made. All this is done once. `Program.Settles` says so of a program at a
level: when it has run, the tree has what it needs, and run again it writes nothing and ends with
the same result, on the tree that it left and on every tree that has as much as that one and agrees
with it at the entries that the program goes by.

Programs that settle can be put together, one after the other, if the second one does not write what
the first one goes by (`Program.Settles.bind`). At the level above, a program counts as one entry
(`Program.Settles.of_child`).
-/

namespace TerminalUI

/-- What a scene does to the tree: it stays one with components of a sort only, entries of some names
of a level are written, and two levels down nothing goes away. -/
structure Tree.Prepared (sort : Blueprint → Bool) (level : Path) (written : Set Name)
    (t t' : Tree) : Prop where
  kept : t'.keepsOnly sort = true
  beside : Tree.SameBeside level written t t'
  grows : Tree.Grows (level.length + 2) t t'

namespace Tree.Prepared

variable {sort : Blueprint → Bool} {level p : Path} {written written' : Set Name}
  {t t' t'' : Tree} {name : Name} {v : Value}

theorem refl (ht : t.keepsOnly sort = true) : Prepared sort level written t t :=
  ⟨ht, .refl level written t, .refl _ t⟩

theorem trans (h : Prepared sort level written t t') (h' : Prepared sort level written t' t'') :
    Prepared sort level written t t'' :=
  ⟨h'.kept, h.beside.trans h'.beside, h.grows.trans h'.grows⟩

theorem mono (h : Prepared sort level written t t') (hwritten : written ⊆ written') :
    Prepared sort level written' t t' :=
  ⟨h.kept, h.beside.mono hwritten, h.grows⟩

theorem of_child (h : Prepared sort (level.child name) written t t') :
    Prepared sort level {name} t t' := by
  refine ⟨h.kept, h.beside.of_child, h.grows.mono ?_⟩
  rw [Path.length, Path.length, Path.segments_child, List.length_append]
  omega

theorem of_update (ht : t.keepsOnly sort = true) (hv : v.keepsOnly sort = true)
    (hp : (level.child name).segments <+: p.segments)
    (hdepth : level.length + 2 ≤ p.length ∨ t.resolve p = none) (h : t.update p v = .ok t') :
    Prepared sort level {name} t t' :=
  ⟨keepsOnly_update ht hv h, sameBeside_update hp h, grows_update h hdepth⟩

end Tree.Prepared

namespace Program

variable {α β : Type} {hook : Option Hook} {sort : Blueprint → Bool} {level q : Path}
  {written written' watched watched' : Set Name} {name : Name}

/-- Whenever it ends with a result, the program has written entries of some names only. -/
structure Touches (hook : Option Hook) (sort : Blueprint → Bool) (level : Path)
    (written : Set Name) (p : Program α) : Prop where
  prepared : ∀ {s s' : Session} {a : α}, s.tree.keepsOnly sort = true →
    (p.run hook).run s = (.ok a, s') → Tree.Prepared sort level written s.tree s'.tree

/-- Whenever the program has ended with a result, it does so again without writing anything: it goes
by entries of some names, and otherwise only by what is there. -/
structure Settles (hook : Option Hook) (sort : Blueprint → Bool) (level : Path)
    (written watched : Set Name) (p : Program α) : Prop extends
    Touches hook sort level written p where
  rests : ∀ {s s' u : Session} {a : α}, s.tree.keepsOnly sort = true →
    (p.run hook).run s = (.ok a, s') →
    (∀ name ∈ watched,
      u.tree.resolve (level.child name) = s'.tree.resolve (level.child name)) →
    Tree.GrowsBelow level s'.tree u.tree → (p.run hook).run u = (.ok a, u)

theorem Touches.mono {p : Program α} (h : Touches hook sort level written p)
    (hwritten : written ⊆ written') : Touches hook sort level written' p :=
  ⟨fun hs hrun => (h.prepared hs hrun).mono hwritten⟩

namespace Settles

theorem mono {p : Program α} (h : Settles hook sort level written watched p)
    (hwritten : written ⊆ written') (hwatched : watched ⊆ watched') :
    Settles hook sort level written' watched' p where
  toTouches := h.toTouches.mono hwritten
  rests hs hrun hsame := h.rests hs hrun fun name hname => hsame name (hwatched hname)

theorem pure (a : α) : Settles hook sort level written watched (pure a) where
  prepared hs hrun := by
    cases hrun
    exact .refl hs
  rests _ hrun _ _ := by
    cases hrun
    rfl

theorem fault (f : Fault) : Settles hook sort level written watched (fault f : Program α) where
  prepared _ hrun := by cases hrun
  rests _ hrun _ _ := by cases hrun

theorem ofExcept_bind (r : Except Fault α) {f : α → Program β}
    (hf : ∀ a, Settles hook sort level written watched (f a)) :
    Settles hook sort level written watched (Program.ofExcept r >>= f) := by
  cases r with
  | ok a => exact hf a
  | error e => exact fault e

/-- **Programs that settle, one after the other.** What the second one writes must not be what the
first one goes by. Of the second one only those are run that follow a result of the first one. -/
theorem bind_of {p : Program α} {f : α → Program β} (h : Settles hook sort level written watched p)
    (hf : ∀ {s s' : Session} {a : α}, s.tree.keepsOnly sort = true →
      (p.run hook).run s = (.ok a, s') → Settles hook sort level written' watched' (f a))
    (hwatched : watched ⊆ watched') (hdisjoint : ∀ name ∈ watched, name ∉ written') :
    Settles hook sort level (written ∪ written') watched' (p >>= f) where
  prepared hs hrun := by
    obtain ⟨a, s₁, hp, hrest⟩ := exists_of_run_bind_eq_ok hrun
    have hprepared := h.prepared hs hp
    have hprepared' := (hf hs hp).prepared hprepared.kept hrest
    exact (hprepared.mono Set.subset_union_left).trans (hprepared'.mono Set.subset_union_right)
  rests := by
    intro s s' u b hs hrun hsame hgrows
    obtain ⟨a, s₁, hp, hrest⟩ := exists_of_run_bind_eq_ok hrun
    have hs₁ := (h.prepared hs hp).kept
    have hprepared := (hf hs hp).prepared hs₁ hrest
    have hfirst : (p.run hook).run u = (.ok a, u) := by
      refine h.rests hs hp (fun name hmem => ?_) (hprepared.grows.below.trans hgrows)
      rw [hsame name (hwatched hmem)]
      exact hprepared.beside.resolve_below (hdisjoint name hmem) (List.prefix_refl _)
    rw [run_bind_of_ok hfirst]
    exact (hf hs hp).rests hs₁ hrest hsame hgrows

theorem bind {p : Program α} {f : α → Program β} (h : Settles hook sort level written watched p)
    (hf : ∀ a, Settles hook sort level written' watched' (f a))
    (hwatched : watched ⊆ watched') (hdisjoint : ∀ name ∈ watched, name ∉ written') :
    Settles hook sort level (written ∪ written') watched' (p >>= f) :=
  h.bind_of (fun _ _ => hf _) hwatched hdisjoint

/-- What is made of a result. -/
theorem bind_pure {p : Program α} (h : Settles hook sort level written watched p) (g : α → β) :
    Settles hook sort level written watched (p >>= fun a => Pure.pure (g a)) := by
  have hbind : Settles hook sort level (written ∪ ∅) watched (p >>= fun a => Pure.pure (g a)) :=
    h.bind (fun a => pure (g a)) (Set.Subset.refl _) fun _ _ => Set.notMem_empty _
  rwa [Set.union_empty] at hbind

/-- At the level above, the program writes one entry and goes by it. -/
theorem of_child {p : Program α} (h : Settles hook sort (level.child name) written watched p) :
    Settles hook sort level {name} {name} p where
  prepared hs hrun := (h.prepared hs hrun).of_child
  rests := by
    intro s s' u a hs hrun hsame _
    have hlevel : u.tree.resolve (level.child name) = s'.tree.resolve (level.child name) :=
      hsame name rfl
    refine h.rests hs hrun (fun other _ => ?_) (Tree.growsBelow_of_resolve_eq hlevel)
    exact Tree.resolve_eq_of_above hlevel (Path.prefix_child _ other)

/-! ### Operations -/

/-- A program that goes by the value at a place only, and writes nothing. -/
theorem of_reads {p : Program α} (hq : (level.child name).segments <+: q.segments)
    {g : Tree → Except Fault α} (hrun : ∀ s, (p.run hook).run s = (g s.tree, s))
    (hvalue : ∀ {t t' : Tree}, t.resolve q = t'.resolve q → g t = g t') :
    Settles hook sort level ∅ {name} p where
  prepared hs h := by
    rw [hrun, Prod.mk.injEq] at h
    obtain ⟨-, rfl⟩ := h
    exact .refl hs
  rests := by
    intro s s' u a _ h hsame _
    rw [hrun, Prod.mk.injEq] at h
    obtain ⟨hresult, rfl⟩ := h
    rw [hrun, hvalue (Tree.resolve_eq_of_above (hsame name rfl) hq), hresult]

/-- Going on after a program that only reads, when what it went by is not written any more. -/
theorem reads_bind_of {p : Program α} (h : Settles hook sort level ∅ {name} p) {f : α → Program β}
    (hf : ∀ {s s' : Session} {a : α}, s.tree.keepsOnly sort = true →
      (p.run hook).run s = (.ok a, s') → Settles hook sort level written watched (f a))
    (hwatched : name ∈ watched) (hfree : name ∉ written) :
    Settles hook sort level written watched (p >>= f) := by
  have hbind := h.bind_of hf (Set.singleton_subset_iff.mpr hwatched) ?_
  · rwa [Set.empty_union] at hbind
  · rintro _ rfl
    exact hfree

theorem reads_bind {p : Program α} (h : Settles hook sort level ∅ {name} p) {f : α → Program β}
    (hf : ∀ a, Settles hook sort level written watched (f a)) (hwatched : name ∈ watched)
    (hfree : name ∉ written) : Settles hook sort level written watched (p >>= f) :=
  h.reads_bind_of (fun _ _ => hf _) hwatched hfree

section

variable [Storable α]

theorem tryGet (hq : (level.child name).segments <+: q.segments) :
    Settles hook sort level ∅ {name} (Var.tryGet (Var.mk (α := α) q)) :=
  of_reads hq (g := fun t => .ok (t.load α q)) (fun _ => rfl) fun h => by
    rw [Tree.load, Tree.load, h]

theorem get (hq : (level.child name).segments <+: q.segments) :
    Settles hook sort level ∅ {name} (Var.get (Var.mk (α := α) q)) := by
  refine (tryGet hq).reads_bind (fun r => ?_) rfl (Set.notMem_empty _)
  cases r with
  | ok a => exact pure a
  | error e => exact fault _

theorem getD (hq : (level.child name).segments <+: q.segments) (default : α) :
    Settles hook sort level ∅ {name} (Var.getD (Var.mk q) default) := by
  refine (tryGet hq).reads_bind (fun r => ?_) rfl (Set.notMem_empty _)
  cases r with
  | ok a => exact pure a
  | error e => exact pure default

/-- The value of an entry of the level. -/
theorem get_entry :
    Settles hook sort level ∅ {name} (Var.get (Var.mk (α := α) (level.child name))) :=
  get (List.prefix_refl _)

/-- Going on with the value of an entry, when nothing is written any more. -/
theorem get_entry_bind (hwatched : name ∈ watched) {f : α → Program β}
    (hf : ∀ a, Settles hook sort level ∅ watched (f a)) :
    Settles hook sort level ∅ watched (Var.get (Var.mk (level.child name)) >>= f) :=
  get_entry.reads_bind hf hwatched (Set.notMem_empty _)

end

/-- A program that puts a value at a place unless something is there, and ends with one result. -/
theorem of_fills {p : Program α} {a : α} {v : Value}
    (hq : (level.child name).segments <+: q.segments) (hlength : q.length ≤ level.length + 2)
    (hv : v.keepsOnly sort = true)
    (hpresent : ∀ s : Session, (s.tree.resolve q).isSome → (p.run hook).run s = (.ok a, s))
    (habsent : ∀ s : Session, s.tree.resolve q = none →
      (p.run hook).run s = match s.tree.update q v with
        | .ok t => (.ok a, { s with tree := t })
        | .error e => (.error (.state e), s)) :
    Settles hook sort level {name} watched p := by
  have hstep {s s' : Session} {b : α} (hs : s.tree.keepsOnly sort = true)
      (hrun : (p.run hook).run s = (.ok b, s')) :
      b = a ∧ Tree.Prepared sort level {name} s.tree s'.tree ∧ (s'.tree.resolve q).isSome := by
    cases hvalue : s.tree.resolve q with
    | some w =>
      have hsome : (s.tree.resolve q).isSome := by rw [hvalue, Option.isSome_some]
      rw [hpresent s hsome] at hrun
      cases hrun
      exact ⟨rfl, .refl hs, hsome⟩
    | none =>
      rw [habsent s hvalue] at hrun
      cases hupdate : s.tree.update q v with
      | error e =>
        rw [hupdate] at hrun
        cases hrun
      | ok t =>
        rw [hupdate] at hrun
        cases hrun
        have hself : t.resolve q = some v := (Tree.update_eq_ok_iff.mp hupdate).resolveFrom_self
        refine ⟨rfl, .of_update hs hv hq (.inr hvalue) hupdate, ?_⟩
        rw [hself, Option.isSome_some]
  refine ⟨⟨fun hs hrun => (hstep hs hrun).2.1⟩, ?_⟩
  intro s s' u b hs hrun _ hgrows
  obtain ⟨rfl, -, hsome⟩ := hstep hs hrun
  exact hpresent u (hgrows q ((Path.prefix_child level name).trans hq) hlength hsome)

theorem length_child : (level.child name).length = level.length + 1 := by
  rw [Path.length, Path.segments_child, List.length_append]
  rfl

theorem stateAt [Storable α] {initial : α}
    (hinitial : (Storable.store initial).keepsOnly sort = true) :
    Settles hook sort level {name} watched (stateAt level name initial) := by
  refine of_fills (List.prefix_refl _) ?_ hinitial
    (fun s hs => run_stateAt_of_isSome hs initial) fun s hs => run_stateAt_of_eq_none hs initial
  rw [length_child]
  omega

/-- Going on with a variable of the level. -/
theorem stateAt_bind [Storable α] {initial : α}
    (hinitial : (Storable.store initial).keepsOnly sort = true) {f : Var α → Program β}
    (hmem : name ∈ written) (hwritten : written' ⊆ written)
    (hf : Settles hook sort level written' watched (f ⟨level.child name⟩)) :
    Settles hook sort level written watched (TerminalUI.stateAt level name initial >>= f) := by
  have h : Settles hook sort level {name} ∅ (TerminalUI.stateAt level name initial) :=
    stateAt hinitial
  have hbind : Settles hook sort level ({name} ∪ written') watched
      (TerminalUI.stateAt level name initial >>= f) := by
    refine h.bind_of (fun _ hrun => ?_) (Set.empty_subset _) fun _ hmem =>
      absurd hmem (Set.notMem_empty _)
    rw [eq_of_run_stateAt hrun]
    exact hf
  refine hbind.mono (Set.union_subset ?_ hwritten) (Set.Subset.refl _)
  exact Set.singleton_subset_iff.mpr hmem

theorem seed {v : Value} (hq : (level.child name).segments <+: q.segments)
    (hlength : q.length ≤ level.length + 2) (hv : v.keepsOnly sort = true) :
    Settles hook sort level {name} watched (Component.seed q v) :=
  of_fills hq hlength hv (fun _ hs => run_seed_of_isSome hs v) fun _ hs => run_seed_of_eq_none hs v

end Settles

end Program

/-! ### Components -/

/-- The component settles at every level, where it leaves alone what is kept as the component of the
level. -/
def Component.Settled (hook : Option Hook) (sort : Blueprint → Bool) (c : Component) : Prop :=
  ∀ level, (c level).Settles hook sort level {name | name ≠ componentName} Set.univ

namespace Component

open Program

variable {β : Type} {hook : Option Hook} {sort : Blueprint → Bool} {level : Path}
  {written written' watched : Set Name} {name : Name} {c : Component}
  {interpret : Blueprint → Component}

theorem Settled.invoke (h : c.Settled hook sort) : c.invoke.Settled hook sort := by
  intro level
  have hread : Settles hook sort level ∅ {errorName}
      (Var.tryGet (Var.mk (α := String) (level.child errorName))) :=
    .tryGet (List.prefix_refl _)
  rw [Component.invoke, ← Set.union_empty {name | name ≠ componentName}]
  refine (h level).bind (fun scene => ?_) (Set.Subset.refl _) fun name _ => Set.notMem_empty name
  refine hread.reads_bind (fun r => ?_) (Set.mem_univ _) (Set.notMem_empty _)
  cases r with
  | ok m => exact .pure _
  | error e => exact .pure _

theorem withStates_singleton (path : Path) (v : Value) :
    c.withStates [(path, v)] level = (do
      seed (level ++ path) v
      c level) := by
  change ((seed (level ++ path) v).bind fun _ => pure ()).bind (fun _ => c level) = _
  rw [bind_assoc]
  rfl

theorem Settled.withState (h : c.Settled hook sort) {path : Path}
    (hcomponent : name ≠ componentName) (hpath : [name.text] <+: path.segments)
    (hlength : path.length ≤ 2) {v : Value} (hv : v.keepsOnly sort = true) :
    (c.withStates [(path, v)]).Settled hook sort := by
  intro level
  have hprefix : (level.child name).segments <+: (level ++ path).segments := by
    rw [Path.segments_child]
    exact (List.prefix_append_right_inj _).mpr hpath
  have hdepth : (level ++ path).length ≤ level.length + 2 := by
    rw [Path.length, Path.segments_append, List.length_append]
    exact Nat.add_le_add_left hlength _
  have hseed : Settles hook sort level {name} ∅ (seed (level ++ path) v) :=
    .seed hprefix hdepth hv
  have hbind := hseed.bind (fun _ => h level) (Set.empty_subset _) fun _ h =>
    absurd h (Set.notMem_empty _)
  rw [Set.union_eq_self_of_subset_left (Set.singleton_subset_iff.mpr hcomponent)] at hbind
  rw [withStates_singleton]
  exact hbind

/-- The component below a level, in a scene of the level. -/
theorem settles_subcomponent
    (hinterpret : ∀ b : Blueprint, b.keepsOnly sort = true → (interpret b).Settled hook sort)
    {b : Blueprint} (hb : b.keepsOnly sort = true) :
    (subcomponent interpret level name b).Settles hook sort level {name} {name} := by
  let scene (kept : Var Blueprint) : Program Scene := do
    (interpret (← kept.get)).invoke (level.child name)
  have hkept : Settles hook sort (level.child name) {other | other ≠ componentName} Set.univ
      (scene ⟨(level.child name).child componentName⟩) := by
    refine Settles.get_entry.reads_bind_of (fun hs hrun => ?_) (Set.mem_univ _) fun h => h rfl
    have hkept := Tree.keepsOnly_of_resolve hs (Var.resolve_of_run_get hrun)
    exact (hinterpret _ hkept).invoke _
  have hstore : (Storable.store b).keepsOnly sort = true := hb
  have hchild := (Settles.stateAt_bind (f := scene) hstore
    (Set.mem_univ _) (Set.subset_univ _) hkept).of_child
  have hempty : (Storable.store Tree.empty).keepsOnly sort = true := rfl
  have hentry : Settles hook sort level {name} ∅ (stateAt level name Tree.empty) :=
    .stateAt hempty
  have hbind := hentry.bind (fun _ => hchild) (Set.empty_subset _) fun _ h =>
    absurd h (Set.notMem_empty _)
  rw [Set.union_self] at hbind
  exact hbind

/-- Going on with the scene of a component below, which is not written any more. -/
theorem settles_subcomponent_bind
    (hinterpret : ∀ b : Blueprint, b.keepsOnly sort = true → (interpret b).Settled hook sort)
    {b : Blueprint} (hb : b.keepsOnly sort = true) {f : Scene → Program β}
    (hwatched : name ∈ watched) (hmem : name ∈ written) (hwritten : written' ⊆ written)
    (hfree : name ∉ written')
    (hf : ∀ scene, (f scene).Settles hook sort level written' watched) :
    (subcomponent interpret level name b >>= f).Settles hook sort level written watched := by
  have h : (subcomponent interpret level name b).Settles hook sort level {name} {name} :=
    settles_subcomponent hinterpret hb
  have hbind := h.bind hf (Set.singleton_subset_iff.mpr hwatched) ?_
  · refine hbind.mono (Set.union_subset ?_ hwritten) (Set.Subset.refl _)
    exact Set.singleton_subset_iff.mpr hmem
  · rintro _ rfl
    exact hfree

end Component

end TerminalUI
