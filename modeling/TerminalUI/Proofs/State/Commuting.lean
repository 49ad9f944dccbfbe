import TerminalUI.Proofs.State.Removing

/-!
# Independent writes

What a write leaves at a place depends on what was there before and on nothing else
(`Tree.Write.effect`). At a place that two writes could reach, neither of them being below the other,
at most one of them has a say, so that their order does not matter; and neither puts a leaf in the
way of the other, nor takes one away.

* `Tree.Write.apply_comm` : **writes to places beside each other commute.**
-/

namespace TerminalUI

namespace Tree

/-- A write to one place of a tree. -/
inductive Write where
  /-- Puts a value at the place. -/
  | put (p : Path) (v : Value)
  /-- Removes what is at the place. -/
  | drop (p : Path)

namespace Write

/-- The place that is written to. -/
def place : Write → Path
  | .put p _ => p
  | .drop p => p

/-- The tree after the write. -/
def apply (w : Write) (t : Tree) : Except Error Tree :=
  match w with
  | .put p v => t.update p v
  | .drop p => t.remove p

/-- Neither place is at the other one or below it. -/
def Beside (w w' : Write) : Prop :=
  ¬ w.place.segments <+: w'.place.segments ∧ ¬ w'.place.segments <+: w.place.segments

instance (w w' : Write) : Decidable (w.Beside w') := inferInstanceAs (Decidable (_ ∧ _))

/-- What is where names lead to after the write, from what was there before. -/
def effect (w : Write) (names : List String) (before : Option Content) : Option Content :=
  match w with
  | .put p v =>
    if p.segments <+: names then v.contentAt (names.drop p.length)
    else if names <+: p.segments then some .map
    else before
  | .drop p => if p.segments <+: names then none else before

variable {w w' : Write} {t t' t₁ t₂ : Tree} {q : Path} {names : List String} {u : Value}

theorem Beside.symm (h : w.Beside w') : w'.Beside w := ⟨h.2, h.1⟩

theorem Beside.place_ne_root (h : w.Beside w') : w.place ≠ .root := by
  intro hroot
  apply h.1
  rw [hroot]
  exact List.nil_prefix

/-- What is at one of the places or below is not at the other one or below. -/
theorem Beside.not_prefix (h : w.Beside w') (hnames : w.place.segments <+: names) :
    ¬ w'.place.segments <+: names := fun hnames' =>
  (List.prefix_or_prefix_of_prefix hnames hnames').elim h.1 h.2

theorem contentAt_apply (hw : w.place ≠ .root) (h : w.apply t = .ok t')
    (names : List String) : t'.contentAt names = w.effect names (t.contentAt names) := by
  cases w with
  | put p v => exact contentAt_update h names
  | drop p => exact contentAt_remove hw h names

/-- At the place of another write and below, a write leaves all as it is. -/
theorem Beside.effect_eq_self (h : w.Beside w') (hnames : w.place.segments <+: names)
    (c : Option Content) : w'.effect names c = c := by
  have hbelow := h.not_prefix hnames
  cases w' with
  | put p v =>
    have habove : ¬ names <+: p.segments := fun habove => h.1 (hnames.trans habove)
    exact (if_neg hbelow).trans (if_neg habove)
  | drop p => exact if_neg hbelow

/-- Elsewhere, a write leaves a map or what was there. -/
theorem effect_comm_of_not_prefix (h : ¬ w.place.segments <+: names)
    (h' : ¬ w'.place.segments <+: names) (c : Option Content) :
    w'.effect names (w.effect names c) = w.effect names (w'.effect names c) := by
  cases w <;> cases w' <;> simp only [place] at h h' <;> simp only [effect, if_neg h, if_neg h']
  split <;> split <;> rfl

theorem Beside.effect_comm (h : w.Beside w') (names : List String) (c : Option Content) :
    w'.effect names (w.effect names c) = w.effect names (w'.effect names c) := by
  by_cases hnames : w.place.segments <+: names
  · rw [h.effect_eq_self hnames, h.effect_eq_self hnames]
  · by_cases hnames' : w'.place.segments <+: names
    · rw [h.symm.effect_eq_self hnames', h.symm.effect_eq_self hnames']
    · exact effect_comm_of_not_prefix hnames hnames' c

/-- A write neither puts a leaf above the place of another one nor takes one away from there. -/
theorem Beside.contentAt_eq_leaf_iff (h : w.Beside w') (happly : w'.apply t = .ok t')
    (hq : q.segments <+: w.place.segments) (hroot : q ≠ .root) :
    t'.contentAt q.segments = some (.leaf u) ↔ t.contentAt q.segments = some (.leaf u) := by
  have hbelow : ¬ w'.place.segments <+: q.segments := fun hbelow => h.2 (hbelow.trans hq)
  rw [contentAt_apply h.symm.place_ne_root happly]
  cases w' with
  | put p v =>
    have heffect : (put p v).effect q.segments (t.contentAt q.segments) =
        if q.segments <+: p.segments then some .map else t.contentAt q.segments :=
      if_neg hbelow
    rw [heffect]
    split
    · -- there is a map above both places now, and a leaf would have stopped the write
      rename_i habove
      have hne := Path.ne_of_not_prefix hbelow
      have hfree := (exists_update_iff h.symm.place_ne_root).mp ⟨t', happly⟩
      refine iff_of_false (fun hmap => by cases hmap) fun hleaf => ?_
      exact hfree q u (obstructs_iff.mpr ⟨habove, hroot, hne, hleaf⟩)
    · rfl
  | drop p =>
    have heffect : (drop p).effect q.segments (t.contentAt q.segments) =
        t.contentAt q.segments := if_neg hbelow
    rw [heffect]

/-- Whether a write succeeds does not depend on one beside it. -/
theorem Beside.exists_apply_iff (h : w.Beside w') (happly : w'.apply t = .ok t') :
    (∃ t₁, w.apply t' = .ok t₁) ↔ ∃ t₁, w.apply t = .ok t₁ := by
  cases w with
  | put p v =>
    -- the leaves above the place decide, and they are the same ones before and after
    have hobstructs (q : Path) (u : Value) : t'.Obstructs p q u ↔ t.Obstructs p q u := by
      rw [obstructs_iff, obstructs_iff]
      refine and_congr_right fun hq => and_congr_right fun hroot => and_congr_right fun _ => ?_
      exact h.contentAt_eq_leaf_iff happly hq hroot
    calc (∃ t₁, t'.update p v = .ok t₁)
      _ ↔ ∀ q u, ¬ t'.Obstructs p q u := exists_update_iff h.place_ne_root
      _ ↔ ∀ q u, ¬ t.Obstructs p q u := by simp only [hobstructs]
      _ ↔ ∃ t₁, t.update p v = .ok t₁ := (exists_update_iff h.place_ne_root).symm
  | drop p => exact iff_of_true (exists_remove_eq_ok t' p) (exists_remove_eq_ok t p)

theorem bind_apply_eq_ok_iff : (w.apply t >>= w'.apply) = .ok t₂ ↔
    ∃ t₁, w.apply t = .ok t₁ ∧ w'.apply t₁ = .ok t₂ := by
  cases w.apply t <;> simp [bind, Except.bind]

/-- Two writes beside each other succeed, one after the other, if each of them does alone. -/
theorem Beside.exists_bind_iff (h : w.Beside w') (t : Tree) :
    (∃ t₂, (w.apply t >>= w'.apply) = .ok t₂) ↔
      (∃ t₁, w.apply t = .ok t₁) ∧ ∃ t₁, w'.apply t = .ok t₁ := by
  simp only [bind_apply_eq_ok_iff]
  constructor
  · rintro ⟨t₂, t₁, happly, happly'⟩
    exact ⟨⟨t₁, happly⟩, (h.symm.exists_apply_iff happly).mp ⟨t₂, happly'⟩⟩
  · rintro ⟨⟨t₁, happly⟩, happly'⟩
    obtain ⟨t₂, happly₂⟩ := (h.symm.exists_apply_iff happly).mpr happly'
    exact ⟨t₂, t₁, happly, happly₂⟩

theorem Beside.contentAt_bind (h : w.Beside w') (hbind : (w.apply t >>= w'.apply) = .ok t₂)
    (names : List String) :
    t₂.contentAt names = w'.effect names (w.effect names (t.contentAt names)) := by
  obtain ⟨t₁, happly, happly'⟩ := bind_apply_eq_ok_iff.mp hbind
  rw [contentAt_apply h.symm.place_ne_root happly', contentAt_apply h.place_ne_root happly]

/-- **Independent writes commute.** Of two writes to places neither of which is at the other one or
below it, be they updates or removals, one after the other succeeds in one order exactly when it
does in the other one, and the tree is the same in the end. -/
theorem apply_comm (h : w.Beside w') (t : Tree) :
    ((∃ t₁, (w.apply t >>= w'.apply) = .ok t₁) ↔ ∃ t₂, (w'.apply t >>= w.apply) = .ok t₂) ∧
      ∀ t₁ t₂, (w.apply t >>= w'.apply) = .ok t₁ → (w'.apply t >>= w.apply) = .ok t₂ →
        t₁ = t₂ := by
  refine ⟨?_, fun t₁ t₂ h₁ h₂ => ?_⟩
  · rw [h.exists_bind_iff, h.symm.exists_bind_iff, and_comm]
  · have hsame : SameContents t₁ t₂ := fun names => by
      rw [h.contentAt_bind h₁, h.symm.contentAt_bind h₂, h.effect_comm]
    exact hsame.eq.symm

/-- A new map beside an entry that is removed, in a map that both share. -/
theorem apply_comm_shared :
    let t : Tree := .ofList [("a", .map (.ofList [("b", .word 1)]))]
    let w : Write := .put (.ofList ["a", "c", "d"]) (.word 2)
    let w' : Write := .drop (.ofList ["a", "b"])
    w.Beside w' ∧ ∃ t₁ t₂, (w.apply t >>= w'.apply) = .ok t₁ ∧
      (w'.apply t >>= w.apply) = .ok t₂ ∧ t₁ = t₂ := by
  intro t w w'
  have h : w.Beside w' := by decide
  obtain ⟨t₁, h₁⟩ : ∃ t₁, (w.apply t >>= w'.apply) = .ok t₁ := ⟨_, rfl⟩
  obtain ⟨t₂, h₂⟩ := (apply_comm h t).1.mp ⟨t₁, h₁⟩
  exact ⟨h, t₁, t₂, h₁, h₂, (apply_comm h t).2 t₁ t₂ h₁ h₂⟩

end Write

end Tree

end TerminalUI
