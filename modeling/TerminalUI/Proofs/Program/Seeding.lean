import TerminalUI.Catalog
import TerminalUI.Proofs.Program.Settles
import TerminalUI.Proofs.State.Contents

/-!
# Seeding the state tree

A seed is put at its place where nothing is, and left out where something is. So a tree that is
seeded keeps what it has (`Tree.Within`), one seed after the other, and a seed that follows can be
left out only for what is there already, be it from the start or from an earlier seed.

* `Component.Seeded` : what a run of seeds makes of a tree.
* `Component.seeding_laws` : **seeding overwrites nothing, is done once and for all, and fails for a
  leaf on the way to a place and for nothing else.**
-/

namespace TerminalUI

/-! ### Trees that are kept -/

/-- What the value has below it, another one has too, apart from what maps hold in addition. -/
def Value.Within (v w : Value) : Prop :=
  ∀ names c, v.contentAt names = some c → w.contentAt names = some c

namespace Value.Within

variable {v w : Value} {t : Tree}

theorem eq_of_leaf (h : v.Within w) (hleaf : v.map? = none) : w = v := by
  have hv : v.contentAt [] = some (.leaf v) :=
    congrArg some (content_eq_leaf_iff.mpr ⟨rfl, hleaf⟩)
  have hw : w.content = .leaf v := Option.some.inj (h [] _ hv)
  exact (content_eq_leaf_iff.mp hw).1

theorem exists_map (h : (Value.map t).Within w) :
    ∃ t', w = .map t' ∧ ∀ name, (t.get? name).isSome → (t'.get? name).isSome := by
  obtain ⟨t', rfl⟩ := content_eq_map_iff.mp (Option.some.inj (h [] _ rfl))
  refine ⟨t', rfl, fun name hname => ?_⟩
  rw [← isSome_contentAt_singleton] at hname ⊢
  obtain ⟨c, hc⟩ := Option.isSome_iff_exists.mp hname
  exact Option.isSome_iff_exists.mpr ⟨c, h [name] c hc⟩

end Value.Within

namespace Tree

variable {t t' t'' : Tree} {p q : Path} {v : Value}

/-- What the tree has, another one has too, apart from what maps hold in addition. -/
def Within (t t' : Tree) : Prop :=
  ∀ names c, t.contentAt names = some c → t'.contentAt names = some c

theorem Within.refl (t : Tree) : Within t t := fun _ _ h => h

theorem Within.trans (h : Within t t') (h' : Within t' t'') : Within t t'' :=
  fun names c hc => h' names c (h names c hc)

theorem Within.isSome (h : Within t t') (hq : (t.resolve q).isSome) : (t'.resolve q).isSome := by
  rw [resolve, ← isSome_contentAt] at hq ⊢
  obtain ⟨c, hc⟩ := Option.isSome_iff_exists.mp hq
  exact Option.isSome_iff_exists.mpr ⟨c, h q.segments c hc⟩

/-- What is at a place stays there, with what is below it. -/
theorem Within.exists_value (h : Within t t') (hv : t.resolve p = some v) :
    ∃ w, t'.resolve p = some w ∧ v.Within w := by
  obtain ⟨w, hw⟩ := Option.isSome_iff_exists.mp (h.isSome (Option.isSome_of_mem hv))
  refine ⟨w, hw, fun names c hc => ?_⟩
  rw [← contentAt_append hv] at hc
  rw [← contentAt_append hw]
  exact h _ c hc

/-- A write where nothing was keeps what is there: the places above it are those of maps. -/
theorem within_update (hnone : t.resolve p = none) (h : t.update p v = .ok t') : Within t t' := by
  intro names c hc
  rw [contentAt_update h]
  split
  · rename_i hbelow
    rw [contentAt_eq_none_iff.mpr (resolveFrom_eq_none_below hbelow hnone)] at hc
    cases hc
  · rename_i hbelow
    split
    · rename_i habove
      cases c with
      | map => rfl
      | leaf w =>
        -- a leaf above the place would have stopped the write
        let q : Path := ⟨names, fun name hname => p.ne_empty name (habove.subset hname)⟩
        have hroot : q ≠ .root := by
          intro hroot
          rw [show names = [] from congrArg Path.segments hroot] at hc
          cases hc
        have hne : q ≠ p := Path.ne_of_not_prefix hbelow
        rw [(obstructs_iff.mpr ⟨habove, hroot, hne, hc⟩).update_eq_error v] at h
        cases h
    · exact hc

/-- A write adds nothing but what is above its place or below it. -/
theorem prefix_or_prefix_of_update (h : t.update p v = .ok t') (hnone : t.resolve q = none)
    (hsome : (t'.resolve q).isSome) : q.segments <+: p.segments ∨ p.segments <+: q.segments := by
  by_contra hbeside
  obtain ⟨habove, hbelow⟩ := not_or.mp hbeside
  rw [resolve, ← isSome_contentAt, contentAt_update h, if_neg hbelow, if_neg habove,
    isSome_contentAt, ← resolve, hnone] at hsome
  cases hsome

end Tree

/-! ### Seeds, one after the other -/

namespace Component

variable {hook : Option Hook} {level p q : Path} {v : Value} {states : List (Path × Value)}
  {s s' : Session} {places places' : List Path} {t t' t'' : Tree} {f : Fault}

/-- Where a seed goes. -/
def seedPlace (level : Path) (state : Path × Value) : Path := level ++ state.1

/-- The part of a component with seeds that comes before the component. -/
def seeding (level : Path) (states : List (Path × Value)) : Program Unit :=
  states.forM fun state => seed (seedPlace level state) state.2

theorem withStates_eq (states : List (Path × Value)) (c : Component) (level : Path) :
    c.withStates states level = (seeding level states >>= fun _ => c level) := rfl

theorem seeding_append (front rest : List (Path × Value)) :
    seeding level (front ++ rest) = (seeding level front >>= fun _ => seeding level rest) :=
  List.forM_append

/-- The first seeds are put before the component with the others runs. -/
theorem withStates_append (front rest : List (Path × Value)) (c : Component) :
    c.withStates (front ++ rest) = (c.withStates rest).withStates front := by
  funext level
  rw [withStates_eq, withStates_eq, withStates_eq, seeding_append, bind_assoc]

section

variable {m m' : Tree} {name : Name} {c : Component} {scene : Scene}

/-- A value is put under a name of the level if nothing is there. -/
theorem leads_seed (v : Value) :
    Program.Leads hook level (seed (level.child name) v) m () (m.withDefault name v) := by
  intro s hs
  have hresolve : s.tree.resolve (level.child name) = m.get? name := Tree.resolve_child hs
  cases hget : m.get? name with
  | none =>
    rw [hget] at hresolve
    obtain ⟨t, hupdate, ht, hsame⟩ := Tree.update_child hs v
    rw [Tree.withDefault, hget]
    refine ⟨t, ?_, ht, hsame⟩
    rw [run_seed_of_eq_none hresolve, hupdate]
  | some w =>
    have hsome : (m.get? name).isSome := by rw [hget, Option.isSome_some]
    rw [hget] at hresolve
    rw [Tree.withDefault_of_isSome hsome]
    refine ⟨s.tree, ?_, hs, .refl level s.tree⟩
    exact run_seed_of_isSome (by rw [hresolve, Option.isSome_some]) v

/-- A component with a value put under a name of its level first. -/
theorem leads_invoke_withState (name : Name) (hname : .ofString name = Path.ofList [name.text])
    (v : Value) (h : Program.Leads hook level (c.invoke level) (m.withDefault name v) scene m') :
    Program.Leads hook level ((c.withStates [(.ofString name, v)]).invoke level) m scene m' := by
  have hseed : Program.Leads hook level (seed (level ++ .ofString name) v) m ()
      (m.withDefault name v) := by
    rw [hname]
    exact leads_seed v
  rw [invoke, withStates_singleton, Program.bind_eq, Program.bind_eq, Program.bind_assoc]
  exact .bind hseed h

end

/-- A blueprint with seeds stands for the component of the blueprint with those seeds. -/
theorem component_withStates (depth : Nat) (states : List (String × Value)) (b : Blueprint) :
    (b.withStates states).component (depth + states.length) =
      (b.component depth).withStates (states.map fun state => (.ofString state.1, state.2)) := by
  induction states with
  | nil => rfl
  | cons state states ih =>
    have hsplit := withStates_append [(Path.ofString state.1, state.2)]
      (states.map fun state => (Path.ofString state.1, state.2)) (b.component depth)
    rw [← ih] at hsplit
    exact hsplit.symm

/-- What seeds for some places make of a tree. -/
structure Seeded (places : List Path) (t t' : Tree) : Prop where
  /-- There is something at each of the places. -/
  isSome : ∀ p ∈ places, (t'.resolve p).isSome
  /-- What was there still is. -/
  within : t.Within t'
  /-- What is new is above one of the places or below it. -/
  near : ∀ q, t.resolve q = none → (t'.resolve q).isSome →
    ∃ p ∈ places, q.segments <+: p.segments ∨ p.segments <+: q.segments

theorem Seeded.refl (h : ∀ p ∈ places, (t.resolve p).isSome) : Seeded places t t where
  isSome := h
  within := .refl t
  near q hnone hsome := by
    rw [hnone] at hsome
    cases hsome

theorem Seeded.trans (h : Seeded places t t') (h' : Seeded places' t' t'') :
    Seeded (places ++ places') t t'' where
  isSome p hp := by
    rcases List.mem_append.mp hp with hp | hp
    · exact h'.within.isSome (h.isSome p hp)
    · exact h'.isSome p hp
  within := h.within.trans h'.within
  near q hnone hsome := by
    -- what is new in the end is new in the second step or was so in the first one
    cases hq : t'.resolve q with
    | none =>
      obtain ⟨p, hp, hnear⟩ := h'.near q hq hsome
      exact ⟨p, List.mem_append_right _ hp, hnear⟩
    | some w =>
      obtain ⟨p, hp, hnear⟩ := h.near q hnone (Option.isSome_of_mem hq)
      exact ⟨p, List.mem_append_left _ hp, hnear⟩

theorem seeded_update (hnone : t.resolve p = none) (h : t.update p v = .ok t') :
    Seeded [p] t t' where
  isSome q hq := by
    have hself : t'.resolve p = some v := (Tree.update_eq_ok_iff.mp h).resolveFrom_self
    rw [List.mem_singleton.mp hq, hself, Option.isSome_some]
  within := Tree.within_update hnone h
  near q hq hsome := ⟨p, List.mem_singleton_self p, Tree.prefix_or_prefix_of_update h hq hsome⟩

/-- A seed is left out, put where nothing was, or stopped by a leaf on its way. -/
theorem run_seed_cases (hook : Option Hook) (s : Session) (p : Path) (v : Value) :
    (s.tree.resolve p).isSome ∧ ((seed p v).run hook).run s = (.ok (), s) ∨
    s.tree.resolve p = none ∧
      ((∃ t, s.tree.update p v = .ok t ∧
          ((seed p v).run hook).run s = (.ok (), { s with tree := t })) ∨
        ∃ q w, s.tree.Obstructs p q w ∧ ((seed p v).run hook).run s =
          (.error (.state (Tree.notMap q w)), s)) := by
  cases hp : s.tree.resolve p with
  | some w =>
    exact .inl ⟨rfl, run_seed_of_isSome (Option.isSome_of_mem hp) v⟩
  | none =>
    have hrun : ((seed p v).run hook).run s = _ := run_seed_of_eq_none hp v
    cases hupdate : s.tree.update p v with
    | ok t =>
      rw [hupdate] at hrun
      exact .inr ⟨rfl, .inl ⟨t, rfl, hrun⟩⟩
    | error e =>
      rw [hupdate] at hrun
      rcases Tree.update_eq_error_iff.mp hupdate with ⟨rfl, -, -⟩ | ⟨q, w, hq, rfl⟩
      · -- the root is always there
        cases hp
      · exact .inr ⟨rfl, .inr ⟨q, w, hq, hrun⟩⟩

/-- A seed that goes well puts its value if nothing was there. -/
theorem of_run_seed_eq_ok (h : ((seed p v).run hook).run s = (.ok (), s')) :
    s'.journal = s.journal ∧ Seeded [p] s.tree s'.tree ∧
      (s.tree.resolve p = none → s'.tree.resolve p = some v) := by
  rcases run_seed_cases hook s p v with
    ⟨hsome, hrun⟩ | ⟨hnone, ⟨t, hupdate, hrun⟩ | ⟨q, w, hq, hrun⟩⟩
  · cases h.symm.trans hrun
    refine ⟨rfl, .refl fun q hq => List.mem_singleton.mp hq ▸ hsome, fun hnone => ?_⟩
    rw [hnone] at hsome
    cases hsome
  · cases h.symm.trans hrun
    exact ⟨rfl, seeded_update hnone hupdate,
      fun _ => (Tree.update_eq_ok_iff.mp hupdate).resolveFrom_self⟩
  · cases h.symm.trans hrun

/-- A seed fails for a leaf on the way to a place where nothing is, and puts nothing then. -/
theorem run_seed_eq_error_iff : ((seed p v).run hook).run s = (.error f, s') ↔
    s = s' ∧ s'.tree.resolve p = none ∧
      ∃ q w, s'.tree.Obstructs p q w ∧ f = .state (Tree.notMap q w) := by
  constructor
  · intro h
    rcases run_seed_cases hook s p v with
      ⟨hsome, hrun⟩ | ⟨hnone, ⟨t, hupdate, hrun⟩ | ⟨q, w, hq, hrun⟩⟩
    · cases h.symm.trans hrun
    · cases h.symm.trans hrun
    · cases h.symm.trans hrun
      exact ⟨rfl, hnone, q, w, hq, rfl⟩
  · rintro ⟨rfl, hp, q, w, hq, rfl⟩
    rw [run_seed_of_eq_none hp, hq.update_eq_error v]

/-- The run of seeds, by one seed after the other. -/
theorem of_run_seeding_eq_ok (h : ((seeding level states).run hook).run s = (.ok (), s')) :
    s'.journal = s.journal ∧ Seeded (states.map (seedPlace level)) s.tree s'.tree := by
  induction states generalizing s with
  | nil =>
    cases h
    exact ⟨rfl, .refl fun p hp => by cases hp⟩
  | cons state states ih =>
    obtain ⟨⟨⟩, s₁, hfirst, hrest⟩ := Program.exists_of_run_bind_eq_ok h
    obtain ⟨hjournal₁, hseeded₁, -⟩ := of_run_seed_eq_ok hfirst
    obtain ⟨hjournal, hseeded⟩ := ih hrest
    exact ⟨hjournal.trans hjournal₁, hseeded₁.trans hseeded⟩

/-- Where something is at all places, no seed is put. -/
theorem run_seeding_of_isSome
    (h : ∀ state ∈ states, (s.tree.resolve (seedPlace level state)).isSome) :
    ((seeding level states).run hook).run s = (.ok (), s) := by
  induction states with
  | nil => rfl
  | cons state states ih =>
    have hfirst : ((seed (seedPlace level state) state.2).run hook).run s = (.ok (), s) :=
      run_seed_of_isSome (h state List.mem_cons_self) state.2
    exact (Program.run_bind_of_ok hfirst _).trans (ih fun other hother => h other (.tail _ hother))

/-- Seeds fail at the first one that finds a leaf on its way, after those before it are put. -/
theorem run_seeding_eq_error_iff :
    ((seeding level states).run hook).run s = (.error f, s') ↔
      ∃ front state rest q w, states = front ++ state :: rest ∧
        ((seeding level front).run hook).run s = (.ok (), s') ∧
        s'.tree.resolve (seedPlace level state) = none ∧
        s'.tree.Obstructs (seedPlace level state) q w ∧
        f = .state (Tree.notMap q w) := by
  rw [seeding, Program.run_forM_eq_error_iff]
  simp only [run_seed_eq_error_iff]
  constructor
  · rintro ⟨front, state, rest, s₁, hstates, hfront, rfl, hnone, q, w, hq, hf⟩
    exact ⟨front, state, rest, q, w, hstates, hfront, hnone, hq, hf⟩
  · rintro ⟨front, state, rest, q, w, hstates, hfront, hnone, hq, hf⟩
    exact ⟨front, state, rest, s', hstates, hfront, rfl, hnone, q, w, hq, hf⟩

/-- **The laws of seeding.** Where the seeds of a component go well, the component runs next, in a
tree that has something at the place of each seed, with every leaf that was there and every map with
the entries that it had, and with nothing new but above and below the places. A seed for a place
where nothing was at its turn is kept, too. To seed that tree again changes nothing. The seeds fail
exactly if one of them, at its turn, is for a place where nothing is and finds a leaf on the way;
those before it are put then, and the component does not run. -/
theorem seeding_laws (hook : Option Hook) (c : Component) (level : Path)
    (states : List (Path × Value)) (s : Session) :
    (∀ s', ((seeding level states).run hook).run s = (.ok (), s') →
      ((c.withStates states level).run hook).run s = ((c level).run hook).run s' ∧
      s'.journal = s.journal ∧
      (∀ state ∈ states, (s'.tree.resolve (seedPlace level state)).isSome) ∧
      (∀ q w, s.tree.resolve q = some w → w.map? = none → s'.tree.resolve q = some w) ∧
      (∀ q m, s.tree.resolve q = some (.map m) → ∃ m', s'.tree.resolve q = some (.map m') ∧
        ∀ name, (m.get? name).isSome → (m'.get? name).isSome) ∧
      (∀ q, s.tree.resolve q = none → (s'.tree.resolve q).isSome →
        ∃ state ∈ states, q.segments <+: (seedPlace level state).segments ∨
          (seedPlace level state).segments <+: q.segments) ∧
      (∀ front state rest s₁, states = front ++ state :: rest →
        ((seeding level front).run hook).run s = (.ok (), s₁) →
        s₁.tree.resolve (seedPlace level state) = none →
          ∃ w, s'.tree.resolve (seedPlace level state) = some w ∧ state.2.Within w) ∧
      ((seeding level states).run hook).run s' = (.ok (), s')) ∧
    ∀ f s', (((seeding level states).run hook).run s = (.error f, s') ↔
        ∃ front state rest q w, states = front ++ state :: rest ∧
          ((seeding level front).run hook).run s = (.ok (), s') ∧
          s'.tree.resolve (seedPlace level state) = none ∧
          s'.tree.Obstructs (seedPlace level state) q w ∧
          f = .state (Tree.notMap q w)) ∧
      (((seeding level states).run hook).run s = (.error f, s') →
        ((c.withStates states level).run hook).run s = (.error f, s')) := by
  refine ⟨fun s' h => ?_, fun f s' => ⟨run_seeding_eq_error_iff, fun h => ?_⟩⟩
  · obtain ⟨hjournal, hseeded⟩ := of_run_seeding_eq_ok h
    have hthere : ∀ state ∈ states, (s'.tree.resolve (seedPlace level state)).isSome :=
      fun state hstate => hseeded.isSome _ (List.mem_map_of_mem hstate)
    refine ⟨Program.run_bind_of_ok h _, hjournal, hthere, fun q w hw hleaf => ?_, fun q m hm => ?_,
      fun q hnone hsome => ?_, fun front state rest s₁ hstates hfront hnone => ?_,
      run_seeding_of_isSome hthere⟩
    · obtain ⟨w', hw', hwithin⟩ := hseeded.within.exists_value hw
      rw [hw', hwithin.eq_of_leaf hleaf]
    · obtain ⟨w', hw', hwithin⟩ := hseeded.within.exists_value hm
      obtain ⟨m', rfl, hnames⟩ := hwithin.exists_map
      exact ⟨m', hw', hnames⟩
    · obtain ⟨p, hp, hnear⟩ := hseeded.near q hnone hsome
      obtain ⟨state, hstate, rfl⟩ := List.mem_map.mp hp
      exact ⟨state, hstate, hnear⟩
    · -- the run goes through the session before the seed and the one after it
      rw [hstates, seeding_append, Program.run_bind_of_ok hfront] at h
      obtain ⟨⟨⟩, s₂, hseed, hrest⟩ := Program.exists_of_run_bind_eq_ok h
      obtain ⟨-, -, hput⟩ := of_run_seed_eq_ok hseed
      obtain ⟨-, hseeded⟩ := of_run_seeding_eq_ok hrest
      exact hseeded.within.exists_value (hput hnone)
  · exact Program.run_bind_of_error h _

end Component

end TerminalUI
