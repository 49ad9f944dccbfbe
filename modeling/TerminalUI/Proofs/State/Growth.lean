import Mathlib.Data.Set.Insert
import TerminalUI.Proofs.State.Kept

/-!
# Trees that grow beside

How a tree changes when a component makes a scene: entries of some names are written, and all else
stays (`Tree.SameBeside`), and of what was there near the level nothing goes away (`Tree.Grows`). A
write can take away what is strictly below its place only, so it lets a tree grow down to its own
depth, and wholly where nothing was. The last section is about maps at places: an entry that is there
is that of a map, and above a map there are maps.
-/

namespace TerminalUI

namespace Path

variable {level p q : Path} {name other : Name}

/-- What is above an entry of a level is above the level. -/
theorem prefix_or_eq_of_prefix_child (h : q.segments <+: (level.child name).segments) :
    q.segments <+: level.segments ∨ q = level.child name := by
  rw [segments_child, List.prefix_concat_iff] at h
  rcases h with h | h
  · exact .inr (Path.ext (h.trans (segments_child level name).symm))
  · exact .inl h

theorem not_prefix_child (habove : ¬ q.segments <+: level.segments)
    (hbelow : ¬ (level.child name).segments <+: q.segments) :
    ¬ q.segments <+: (level.child name).segments := by
  intro h
  rcases prefix_or_eq_of_prefix_child h with h | rfl
  · exact habove h
  · exact hbelow (List.prefix_refl _)

/-- What is above a place is above the map that holds it. -/
theorem prefix_parent {names : List String} (h : names <+: p.segments)
    (hne : names ≠ p.segments) : names <+: p.parent.segments := by
  obtain ⟨rest, hrest⟩ := h
  have hrest' : rest ≠ [] := by
    rintro rfl
    exact hne ((List.append_nil _).symm.trans hrest)
  rw [segments_parent, ← hrest, List.dropLast_append_of_ne_nil hrest']
  exact List.prefix_append _ _

theorem ne_of_not_prefix (h : ¬ p.segments <+: q.segments) : q ≠ p :=
  fun heq => h (heq ▸ List.prefix_refl _)

theorem prefix_child (level : Path) (name : String) :
    level.segments <+: (level.child name).segments :=
  List.prefix_append _ _

theorem not_child_prefix_self :
    ¬ (level.child name).segments <+: level.segments := by
  intro h
  have := h.length_le
  rw [segments_child, List.length_append, List.length_singleton] at this
  omega

/-- Two entries of a level are not above each other. -/
theorem eq_of_child_prefix_child
    (h : (level.child name).segments <+: (level.child other).segments) : name = other := by
  rcases prefix_or_eq_of_prefix_child h with h | h
  · exact absurd h not_child_prefix_self
  · exact (eq_of_child_eq h).2

end Path

namespace Tree

variable {t t' t'' m m' : Tree} {level p q : Path} {name key : Name} {names names' : Set Name}
  {depth : Nat} {v : Value}

/-! ### Places that stay as they are -/

/-- Trees that agree at every place that is neither above the level nor at an entry of one of the
names or below it. -/
def SameBeside (level : Path) (names : Set Name) (t t' : Tree) : Prop :=
  ∀ q : Path, ¬ q.segments <+: level.segments →
    (∀ name ∈ names, ¬ (level.child name).segments <+: q.segments) →
    t'.resolve q = t.resolve q

theorem SameBeside.refl (level : Path) (names : Set Name) (t : Tree) :
    SameBeside level names t t :=
  fun _ _ _ => rfl

theorem SameBeside.trans (h : SameBeside level names t t') (h' : SameBeside level names t' t'') :
    SameBeside level names t t'' :=
  fun q habove hbeside => (h' q habove hbeside).trans (h q habove hbeside)

theorem SameBeside.mono (h : SameBeside level names t t') (hnames : names ⊆ names') :
    SameBeside level names' t t' :=
  fun q habove hbeside => h q habove fun name hname => hbeside name (hnames hname)

/-- One change after the other is one of the entries of both. -/
theorem SameBeside.union (h : SameBeside level names t t') (h' : SameBeside level names' t' t'') :
    SameBeside level (names ∪ names') t t'' :=
  (h.mono Set.subset_union_left).trans (h'.mono Set.subset_union_right)

/-- What happens at a level below happens at one entry. -/
theorem SameBeside.of_child (h : SameBeside (level.child name) names t t') :
    SameBeside level {name} t t' := by
  intro q habove hbeside
  have hq : ¬ (level.child name).segments <+: q.segments := hbeside name rfl
  exact h q (Path.not_prefix_child habove hq) fun other _ h =>
    hq ((Path.prefix_child _ other).trans h)

/-- The entries of other names stay. -/
theorem SameBeside.resolve_below (h : SameBeside level names t t')
    (hfree : name ∉ names) (hq : (level.child name).segments <+: q.segments) :
    t'.resolve q = t.resolve q := by
  refine h q (fun h => ?_) fun other hmem h => ?_
  · exact Path.not_child_prefix_self (hq.trans h)
  · rcases List.prefix_or_prefix_of_prefix hq h with h | h
    · exact hfree (Path.eq_of_child_prefix_child h ▸ hmem)
    · exact hfree (Path.eq_of_child_prefix_child h ▸ hmem)

theorem sameBeside_update (hp : (level.child name).segments <+: p.segments)
    (h : t.update p v = .ok t') : SameBeside level {name} t t' := by
  intro q habove hbeside
  have hq : ¬ (level.child name).segments <+: q.segments := hbeside name rfl
  have hput := update_eq_ok_iff.mp h
  refine hput.resolveFrom_of_not_prefix (fun h => hq (hp.trans h)) fun h => ?_
  rcases List.prefix_or_prefix_of_prefix h hp with h | h
  · exact Path.not_prefix_child habove hq h
  · exact hq h

/-- What happens at a level below, happens at one entry. -/
theorem SameOutside.beside (h : SameOutside (level.child name) t t') :
    SameBeside level {name} t t' := by
  intro q habove hbeside
  have hq : ¬ (level.child name).segments <+: q.segments := hbeside name rfl
  exact h q hq (Path.not_prefix_child habove hq)

/-- Maps at a level that differ in entries of some names, in trees that are the same outside. -/
theorem SameOutside.beside_of_get? (ht : t.resolve level = some (.map m))
    (ht' : t'.resolve level = some (.map m'))
    (hget : ∀ key : Name, key ∉ names → m'.get? key = m.get? key) (h : SameOutside level t t') :
    SameBeside level names t t' := by
  intro q habove hbeside
  by_cases hbelow : level.segments <+: q.segments
  · obtain ⟨rest, hrest⟩ := hbelow
    cases rest with
    | nil => exact absurd (by simp [← hrest]) habove
    | cons key rest =>
      obtain ⟨key, rfl⟩ : ∃ name : Name, name.text = key :=
        ⟨⟨key, q.ne_empty key (by simp [← hrest])⟩, rfl⟩
      have hkey : key ∉ names := by
        intro hmem
        refine hbeside key hmem ?_
        rw [Path.segments_child, ← hrest]
        exact ⟨rest, by simp⟩
      rw [resolve, resolve, ← hrest, resolveFrom_append, resolveFrom_append, ← resolve, ← resolve,
        ht, ht', Option.bind_some, Option.bind_some, resolveFrom_cons, resolveFrom_cons,
        hget key hkey]
  · exact h q hbelow habove

theorem SameBeside.resolve_child (h : SameBeside level names t t')
    (hfree : name ∉ names) : t'.resolve (level.child name) = t.resolve (level.child name) :=
  h.resolve_below hfree (List.prefix_refl _)

theorem SameBeside.resolve_grandchild (h : SameBeside level names t t')
    (hfree : name ∉ names) (key : String) :
    t'.resolve ((level.child name).child key) = t.resolve ((level.child name).child key) :=
  h.resolve_below hfree (Path.prefix_child _ key)

/-! ### Places that do not go away -/

/-- Down to some depth, where there is something in one tree, there is something in another one. -/
def Grows (depth : Nat) (t t' : Tree) : Prop :=
  ∀ q : Path, q.length ≤ depth → (t.resolve q).isSome → (t'.resolve q).isSome

theorem Grows.refl (depth : Nat) (t : Tree) : Grows depth t t := fun _ _ h => h

theorem Grows.trans (h : Grows depth t t') (h' : Grows depth t' t'') : Grows depth t t'' :=
  fun q hq hsome => h' q hq (h q hq hsome)

theorem Grows.mono {depth' : Nat} (h : Grows depth t t') (hdepth : depth' ≤ depth) :
    Grows depth' t t' :=
  fun q hq => h q (hq.trans hdepth)

/-- At a level and two levels down, where there is something in one tree, there is something in
another one. -/
def GrowsBelow (level : Path) (t t' : Tree) : Prop :=
  ∀ q : Path, level.segments <+: q.segments → q.length ≤ level.length + 2 →
    (t.resolve q).isSome → (t'.resolve q).isSome

theorem GrowsBelow.refl (level : Path) (t : Tree) : GrowsBelow level t t := fun _ _ _ h => h

theorem GrowsBelow.trans (h : GrowsBelow level t t') (h' : GrowsBelow level t' t'') :
    GrowsBelow level t t'' :=
  fun q hlevel hq hsome => h' q hlevel hq (h q hlevel hq hsome)

theorem Grows.below (h : Grows (level.length + 2) t t') : GrowsBelow level t t' :=
  fun q _ => h q

/-- Trees with the same at a place have the same at all places below. -/
theorem resolve_eq_of_above (h : t'.resolve p = t.resolve p) (hq : p.segments <+: q.segments) :
    t'.resolve q = t.resolve q := by
  obtain ⟨rest, hrest⟩ := hq
  rw [resolve, resolve, ← hrest, resolveFrom_append, resolveFrom_append, ← resolve, ← resolve, h]

theorem growsBelow_of_resolve_eq (h : t'.resolve level = t.resolve level) :
    GrowsBelow level t t' := by
  intro q hlevel _ hsome
  rwa [resolve_eq_of_above h hlevel]

theorem resolve_eq_none_below (hq : p.segments <+: q.segments) (h : t.resolve p = none) :
    t.resolve q = none :=
  resolveFrom_eq_none_below hq h

/-- A write lets the tree grow down to the depth of its place, and wholly if nothing was there. -/
theorem grows_update (h : t.update p v = .ok t')
    (hdepth : depth ≤ p.length ∨ t.resolve p = none) : Grows depth t t' := by
  have hput := update_eq_ok_iff.mp h
  have hself : t'.resolve p = some v := hput.resolveFrom_self
  intro q hq hsome
  by_cases hbelow : p.segments <+: q.segments
  · rcases hdepth with hdepth | hnone
    · have hlength : p.segments.length = q.segments.length :=
        Nat.le_antisymm hbelow.length_le (Nat.le_trans hq hdepth)
      have heq : p = q := Path.ext (hbelow.eq_of_length hlength)
      rw [← heq, hself, Option.isSome_some]
    · rw [resolve_eq_none_below hbelow hnone] at hsome
      cases hsome
  · by_cases habove : q.segments <+: p.segments
    · have hne : q.segments ≠ p.segments := fun heq => hbelow (heq ▸ List.prefix_refl _)
      obtain ⟨m, hm⟩ := hput.exists_map habove hne
      rw [resolve, hm, Option.isSome_some]
    · have hsame : t'.resolve q = t.resolve q := hput.resolveFrom_of_not_prefix hbelow habove
      rwa [hsame]

/-! ### Maps at places -/

theorem resolve_child_of_resolve_eq_none (hfree : t.resolve level = none) :
    t.resolve (level.child name) = none := by
  rw [resolve, Path.segments_child, resolveFrom_append, ← resolve, hfree, Option.bind_none]

/-- A tree has a map at a place, where nothing counts as an empty one. -/
def HasMap (t : Tree) (p : Path) (m : Tree) : Prop :=
  t.resolve p = some (.map m) ∨ t.resolve p = none ∧ m = .empty

theorem HasMap.resolve_child (h : t.HasMap level m) :
    t.resolve (level.child name) = m.get? name := by
  rcases h with h | ⟨h, rfl⟩
  · exact Tree.resolve_child h
  · exact resolve_child_of_resolve_eq_none h

theorem exists_map_of_child (h : t.resolve (level.child name) = some v) :
    ∃ m, t.resolve level = some (.map m) := by
  rw [resolve, Path.segments_child, resolveFrom_append, ← resolve] at h
  obtain ⟨w, hw, hv⟩ := Option.bind_eq_some_iff.mp h
  obtain ⟨m, -, rfl, -⟩ := exists_map_of_resolveFrom_cons hv
  exact ⟨m, hw⟩

theorem exists_map_of_grandchild
    (h : t.resolve ((level.child name).child key) = some v) :
    ∃ m, t.resolve level = some (.map m) := by
  obtain ⟨m, hm⟩ := exists_map_of_child h
  exact exists_map_of_child hm

theorem exists_map_above (h : t.resolve p = some (.map m)) (hq : q.segments <+: p.segments) :
    ∃ m', t.resolve q = some (.map m') :=
  exists_map_resolveFrom_above hq h

/-- Below a level that holds a map, an entry can be written where nothing or a map is. -/
theorem exists_update_grandchild
    (hlevel : t.resolve level = some (.map m)) (hmap : t.HasMap (level.child name) m') (v : Value) :
    ∃ t', t.update ((level.child name).child key) v = .ok t' := by
  rcases t.exists_put_or_obstructs ((level.child name).child key) v with
    ⟨t', hput⟩ | ⟨hroot, -⟩ | ⟨q, w, hq⟩
  · exact ⟨t', update_eq_ok_iff.mpr hput⟩
  · exact absurd hroot (Path.child_ne_root _ key)
  · -- no leaf is on the way: the level holds a map, and so does its entry if anything is there
    have hleaf := hq.leaf
    rcases Path.prefix_or_eq_of_prefix_child hq.above with hprefix | heq
    · rcases Path.prefix_or_eq_of_prefix_child hprefix with habove | rfl
      · obtain ⟨m₀, hm₀⟩ := exists_map_above hlevel habove
        rw [hq.found] at hm₀
        cases hm₀
        cases hleaf
      · rcases hmap with hmap | ⟨hmap, -⟩ <;> rw [hq.found] at hmap <;> cases hmap
        cases hleaf
    · exact absurd heq hq.ne

/-- What is removed was an entry of a map, or nothing was there. -/
theorem eq_or_exists_of_remove_child (h : t.remove (level.child name) = .ok t') :
    t' = t ∨ ∃ m, t.resolve level = some (.map m) ∧ t'.resolve level = some (.map (m.erase name)) ∧
      SameOutside level t t' := by
  cases Removed.of_remove (Path.child_ne_root level name) h with
  | absent => exact .inl rfl
  | @taken last m _ hp hm _ hput =>
    rw [Path.parent_child] at hp hm hput
    rw [Path.segments_child] at hp
    cases List.append_cancel_left hp
    exact .inr ⟨m, hm, hput.resolveFrom_self, fun q => hput.resolveFrom_of_not_prefix⟩

theorem sameBeside_remove (h : t.remove (level.child name) = .ok t') :
    SameBeside level {name} t t' := by
  rcases eq_or_exists_of_remove_child h with rfl | ⟨m, hm, hm', hsame⟩
  · exact .refl level _ _
  · refine hsame.beside_of_get? hm hm' fun key hkey => ?_
    rw [get?_erase, if_neg (Name.text_ne hkey)]

end Tree

end TerminalUI
