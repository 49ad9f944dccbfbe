import TerminalUI.Proofs.Program.Steps
import TerminalUI.Proofs.State.Contents

/-!
# Removing from the state tree

A removal puts the map that an entry is in back without the entry, and does nothing where nothing is
(`Tree.Removed`). So it never fails, and apart from what was at its place and below, the tree has the
contents that it had (`Tree.contentAt_remove`).

* `Tree.remove_laws` : **a removal takes away what is at the path and below, and nothing else; it
  undoes a write of a new entry.**
-/

namespace TerminalUI

namespace Tree

variable {t t' : Tree} {p : Path} {names : List String} {v : Value}

theorem exists_remove_eq_ok (t : Tree) (p : Path) : ∃ t', t.remove p = .ok t' := by
  by_cases hp : p = .root
  · exact ⟨.empty, hp ▸ rfl⟩
  · obtain ⟨t', h, -⟩ := exists_remove t hp
    exact ⟨t', h⟩

/-- Nothing is left at the place or below. -/
theorem Removed.resolveFrom_below (h : t.Removed p t') (hnames : p.segments <+: names) :
    resolveFrom (.map t') names = none := by
  have hself : resolveFrom (.map t') p.segments = none := by
    cases h with
    | absent h => exact h
    | taken hp _ _ hput => rw [hp, resolveFrom_concat hput.resolveFrom_self, get?_erase, if_pos rfl]
  exact resolveFrom_eq_none_below hnames hself

/-- Beside the place, everything stays. -/
theorem Removed.resolveFrom_of_not_prefix (h : t.Removed p t')
    (hbelow : ¬ p.segments <+: names) (habove : ¬ names <+: p.segments) :
    resolveFrom (.map t') names = resolveFrom (.map t) names := by
  cases h with
  | absent => rfl
  | @taken name m _ hp hm _ hput =>
    rw [hp] at hbelow habove
    by_cases hnames : p.parent.segments <+: names
    · -- another entry of the same map, or something below it
      obtain ⟨rest, rfl⟩ := hnames
      have hmap : resolveFrom (.map t) p.parent.segments = some (.map m) := hm
      rw [resolveFrom_append, resolveFrom_append, hput.resolveFrom_self, hmap, Option.bind_some,
        Option.bind_some]
      cases rest with
      | nil => exact absurd (by simp) habove
      | cons key rest =>
        have hkey : key ≠ name := by
          rintro rfl
          exact hbelow ⟨rest, by simp⟩
        rw [resolveFrom_cons, resolveFrom_cons, get?_erase, if_neg hkey]
    · exact hput.resolveFrom_of_not_prefix hnames fun h =>
        habove (h.trans (List.prefix_append _ _))

/-- Above an entry there are maps, before and after. -/
theorem Removed.contentAt_above (h : t.Removed p t') (habove : names <+: p.segments)
    (hne : names ≠ p.segments) : t'.contentAt names = t.contentAt names := by
  cases h with
  | absent => rfl
  | taken _ hm _ hput =>
    have hparent := Path.prefix_parent habove hne
    rw [contentAt_eq_map_iff.mpr (exists_map_resolveFrom_above hparent hput.resolveFrom_self),
      contentAt_eq_map_iff.mpr (exists_map_resolveFrom_above hparent hm)]

/-- After a removal, nothing is at the place or below, and all else is as before. -/
theorem contentAt_remove (hp : p ≠ .root) (h : t.remove p = .ok t') (names : List String) :
    t'.contentAt names = if p.segments <+: names then none else t.contentAt names := by
  have hremoved := Removed.of_remove hp h
  split
  · rename_i hbelow
    exact contentAt_eq_none_iff.mpr (hremoved.resolveFrom_below hbelow)
  · rename_i hbelow
    by_cases habove : names <+: p.segments
    · exact hremoved.contentAt_above habove fun heq => hbelow (heq ▸ List.prefix_refl _)
    · exact congrArg (Option.map Value.content) (hremoved.resolveFrom_of_not_prefix hbelow habove)

/-- Above a new entry of a map there is nothing but maps, so it can be written. -/
theorem exists_update_of_parent {m : Tree} (hp : p ≠ .root)
    (hm : t.resolve p.parent = some (.map m)) (v : Value) :
    ∃ t', t.update p v = .ok t' := by
  refine (exists_update_iff hp).mpr fun q w hq => ?_
  obtain ⟨m', hm'⟩ := exists_map_above hm (Path.prefix_parent hq.above (mt Path.ext hq.ne))
  have hleaf := hq.leaf
  rw [Option.some.inj (hq.found.symm.trans hm')] at hleaf
  cases hleaf

/-- A removal undoes the write of a new entry of a map. -/
theorem sameContents_of_remove_update {m t'' : Tree} (hp : p ≠ .root) (hnone : t.resolve p = none)
    (hm : t.resolve p.parent = some (.map m)) (hupdate : t.update p v = .ok t')
    (hremove : t'.remove p = .ok t'') : SameContents t t'' := by
  intro names
  rw [contentAt_remove hp hremove, contentAt_update hupdate]
  split
  · rename_i hbelow
    exact (contentAt_eq_none_iff.mpr (resolveFrom_eq_none_below hbelow hnone)).symm
  · rename_i hbelow
    split
    · rename_i habove
      have hne : names ≠ p.segments := fun heq => hbelow (heq ▸ List.prefix_refl _)
      exact (contentAt_eq_map_iff.mpr
        (exists_map_resolveFrom_above (Path.prefix_parent habove hne) hm)).symm
    · rfl

/-- Where a map was above the place, there is one with the same names, apart from that of the entry. -/
theorem exists_map_of_remove {q : Path} {m : Tree} (hp : p ≠ .root) (h : t.remove p = .ok t')
    (habove : q.segments <+: p.segments) (hne : q ≠ p) (hm : t.resolve q = some (.map m)) :
    ∃ m', t'.resolve q = some (.map m') ∧ ∀ name, (m'.get? name).isSome ↔
      (m.get? name).isSome ∧ q.segments ++ [name] ≠ p.segments := by
  have hbelow : ¬ p.segments <+: q.segments := fun hbelow =>
    hne (Path.ext (habove.eq_of_length_le hbelow.length_le))
  have hcontent := contentAt_remove hp h q.segments
  rw [if_neg hbelow, contentAt_eq_map_iff.mpr ⟨m, hm⟩] at hcontent
  obtain ⟨m', hm'⟩ := contentAt_eq_map_iff.mp hcontent
  refine ⟨m', hm', fun name => ?_⟩
  have hprefix : p.segments <+: q.segments ++ [name] ↔ p.segments = q.segments ++ [name] := by
    rw [List.prefix_concat_iff]
    exact or_iff_left hbelow
  rw [← isSome_contentAt_concat hm', contentAt_remove hp h, ← isSome_contentAt_concat hm]
  by_cases hself : p.segments = q.segments ++ [name]
  · simp [hself]
  · rw [if_neg (mt hprefix.mp hself)]
    exact (and_iff_left (Ne.symm hself)).symm

/-- **The laws of removing.** A removal never fails, neither in a tree nor for an application that
removes an entry or clears a variable. Below the root, there is nothing at the path and below it
afterwards, every place beside it is as before, and where a map was above it there is one with the
same names, but for that of the entry. Where nothing was, the tree stays as it is; and a new entry
of a map, written and removed again, leaves the tree as it was. -/
theorem remove_laws (α : Type) (t : Tree) (p : Path) :
    ∃ t', t.remove p = .ok t' ∧
      (∀ journal, (do UI.commit ((← UI.tree).remove p) : UI Unit).run ⟨t, journal⟩ =
        (.ok (), ⟨t', journal⟩)) ∧
      (∀ hook journal, ((Var.clear (Var.mk (α := α) p)).run hook).run ⟨t, journal⟩ =
        (.ok (), ⟨t', journal⟩)) ∧
      (p ≠ .root → (∀ q : Path, t'.resolve (p ++ q) = none) ∧
        (∀ q : Path, ¬ p.segments <+: q.segments → ¬ q.segments <+: p.segments →
          t'.resolve q = t.resolve q) ∧
        (∀ (q : Path) (m : Tree), q.segments <+: p.segments → q ≠ p →
          t.resolve q = some (.map m) → ∃ m', t'.resolve q = some (.map m') ∧
            ∀ name, (m'.get? name).isSome ↔
              (m.get? name).isSome ∧ q.segments ++ [name] ≠ p.segments) ∧
        (t.resolve p = none → t' = t) ∧
        ∀ (m : Tree) (v : Value), t.resolve p = none →
          t.resolve p.parent = some (.map m) →
            ∃ t₁ t₂, t.update p v = .ok t₁ ∧ t₁.remove p = .ok t₂ ∧ t₂ = t) := by
  obtain ⟨t', hremove⟩ := exists_remove_eq_ok t p
  refine ⟨t', hremove, fun journal => ?_, fun hook journal => ?_, fun hp => ?_⟩
  · rw [run_bind_of_ok (UI.run_tree ⟨t, journal⟩), hremove]
    rfl
  · rw [Var.run_clear, hremove]
  · have hremoved := Removed.of_remove hp hremove
    refine ⟨fun q => hremoved.resolveFrom_below (List.prefix_append _ _),
      fun q => hremoved.resolveFrom_of_not_prefix,
      fun q m habove hne hm => exists_map_of_remove hp hremove habove hne hm,
      fun hnone => ?_, fun m v hnone hm => ?_⟩
    · cases hremoved with
      | absent => rfl
      | taken hp' hm hentry =>
        rw [resolve, hp', resolveFrom_concat hm] at hnone
        rw [hnone] at hentry
        cases hentry
    · obtain ⟨t₁, hupdate⟩ := exists_update_of_parent hp hm v
      obtain ⟨t₂, hremove₂⟩ := exists_remove_eq_ok t₁ p
      have hsame := sameContents_of_remove_update hp hnone hm hupdate hremove₂
      exact ⟨t₁, t₂, hupdate, hremove₂, hsame.eq⟩

end Tree

end TerminalUI
