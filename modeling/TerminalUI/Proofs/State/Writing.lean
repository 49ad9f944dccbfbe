import TerminalUI.Proofs.Program.Running

/-!
# Writing to the state tree

A write goes down the names of a path, makes the maps that are missing, and puts the value at the
end. `Value.Put` says this with one rule for the end and one for a name on the way, and what is true
of writes is shown by induction over it. Only a leaf on the way stops a write (`Tree.Obstructs`),
and there is never more than one.

* `Tree.update_eq_ok_iff` : the trees that writes succeed with are those of `Value.Put`.
* `Tree.update_eq_error_iff` : a write fails for a leaf on the way, which the error names, or for a
  leaf in the place of the root.
* `Tree.update_laws` : **a tree that was written to holds the value at the path, maps above it, and
  all else as before; a write that fails leaves the session as it was.**
-/

namespace TerminalUI

theorem Entries.insert_insert {bound : Option String} (es : Entries bound) (name : String)
    (h : Follows bound name) (v w : Value) :
    (es.insert name h v).insert name h w = es.insert name h w := by
  match es with
  | .nil => simp [insert]
  | .cons k hk u rest =>
    by_cases hname : name = k
    · simp [insert, hname]
    · by_cases hlt : name < k
      · simp [insert, hname, hlt]
      · have ih := insert_insert rest name (.of_not_lt hname hlt) v w
        simp [insert, hname, hlt, ih]

namespace Tree

/-- The value that a write finds under a name: an empty map if nothing is there. -/
def childAt (t : Tree) (name : String) : Value := (t.get? name).getD (.map .empty)

variable {t : Tree} {name : String} {names : List String} {w : Value}

theorem childAt_insert_self (t : Tree) (name : String) (v : Value) :
    (t.insert name v).childAt name = v := by
  rw [childAt, get?_insert_self, Option.getD_some]

theorem insert_insert (t : Tree) (name : String) (v w : Value) :
    (t.insert name v).insert name w = t.insert name w :=
  congrArg ofEntries (t.entries.insert_insert name (.all name) v w)

theorem resolveFrom_cons (t : Tree) (name : String) (names : List String) :
    resolveFrom (.map t) (name :: names) = (t.get? name).bind (resolveFrom · names) := by
  simp only [resolveFrom]
  cases t.get? name <;> rfl

theorem resolveFrom_childAt (t : Tree) (name : String) (h : names ≠ []) :
    resolveFrom (t.childAt name) names = resolveFrom (.map t) (name :: names) := by
  rw [resolveFrom_cons, childAt]
  cases t.get? name with
  | some v => rfl
  | none =>
    cases names with
    | nil => exact absurd rfl h
    | cons next names => rfl

theorem resolveFrom_childAt_eq_some (h : resolveFrom (.map t) (name :: names) = some w) :
    resolveFrom (t.childAt name) names = some w := by
  rw [resolveFrom_cons] at h
  obtain ⟨v, hv, hw⟩ := Option.bind_eq_some_iff.mp h
  rw [childAt, hv, Option.getD_some, hw]

/-- A leaf that a write finds was there before. -/
theorem resolveFrom_eq_some_of_childAt (h : resolveFrom (t.childAt name) names = some w)
    (hleaf : w.map? = none) : resolveFrom (.map t) (name :: names) = some w := by
  rw [childAt] at h
  rw [resolveFrom_cons]
  cases hchild : t.get? name with
  | some v => rwa [hchild] at h
  | none =>
    rw [hchild, Option.getD_none] at h
    cases names with
    | nil =>
      cases h
      cases hleaf
    | cons next names => cases h

theorem resolveFrom_insert_self (t : Tree) (name : String) (v : Value) (names : List String) :
    resolveFrom (.map (t.insert name v)) (name :: names) = resolveFrom v names := by
  rw [resolveFrom_cons, get?_insert_self, Option.bind_some]

end Tree

/-! ### Putting a value into another one -/

namespace Value

/-- With `v` put where names lead to, a value becomes another one. -/
inductive Put (v : Value) : Value → List String → Value → Prop where
  /-- At the end, the value takes the place of what was there. -/
  | here (u : Value) : Put v u [] v
  /-- On the way, a map gets back what became of the value under the name. -/
  | inside {t : Tree} {name : String} {names : List String} {u : Value}
    (h : Put v (t.childAt name) names u) : Put v (.map t) (name :: names) (.map (t.insert name u))

variable {u u' v w : Value} {names front q : List String}

theorem Put.resolveFrom_self (h : Put v u names u') : Tree.resolveFrom u' names = some v := by
  induction h with
  | here u => rfl
  | inside _ ih => rw [Tree.resolveFrom_insert_self, ih]

/-- Beside the way, everything stays. -/
theorem Put.resolveFrom_of_not_prefix (h : Put v u names u') (hbelow : ¬ names <+: q)
    (habove : ¬ q <+: names) : Tree.resolveFrom u' q = Tree.resolveFrom u q := by
  induction h generalizing q with
  | here u => exact absurd List.nil_prefix hbelow
  | @inside t name names u _ ih =>
    cases q with
    | nil => exact absurd List.nil_prefix habove
    | cons first q =>
      by_cases hfirst : first = name
      · subst hfirst
        simp only [List.cons_prefix_cons, true_and] at hbelow habove
        have hq : q ≠ [] := fun h => habove (h ▸ List.nil_prefix)
        rw [Tree.resolveFrom_insert_self, ih hbelow habove, Tree.resolveFrom_childAt t first hq]
      · exact Tree.resolveFrom_insert_of_ne hfirst

/-- On the way, there are maps afterwards. -/
theorem Put.exists_map (h : Put v u names u') (hq : q <+: names) (hne : q ≠ names) :
    ∃ m, Tree.resolveFrom u' q = some (.map m) := by
  induction h generalizing q with
  | here u => exact absurd (List.prefix_nil.mp hq) hne
  | @inside t name names u _ ih =>
    cases q with
    | nil => exact ⟨t.insert name u, rfl⟩
    | cons first q =>
      obtain ⟨rfl, hq'⟩ := List.cons_prefix_cons.mp hq
      obtain ⟨m, hm⟩ := ih hq' fun h => hne (h ▸ rfl)
      exact ⟨m, by rw [Tree.resolveFrom_insert_self, hm]⟩

/-- A value can be put wherever another one can. -/
theorem Put.exists_put (h : Put v u names u') (w : Value) : ∃ u'', Put w u names u'' := by
  induction h with
  | here u => exact ⟨w, .here u⟩
  | inside _ ih =>
    obtain ⟨u'', hput⟩ := ih
    exact ⟨_, .inside hput⟩

/-- Of two values put at the same place, the second one counts. -/
theorem Put.put (h : Put v u names u') {u'' : Value} (hw : Put w u names u'') :
    Put w u' names u'' := by
  induction h generalizing u'' with
  | here u =>
    cases hw
    exact .here v
  | @inside t name names u _ ih =>
    cases hw with
    | @inside _ _ _ u₂ hw =>
      rw [← Tree.insert_insert t name u u₂]
      exact .inside (by rw [Tree.childAt_insert_self]; exact ih hw)

/-- A value can be put anywhere, unless a leaf is on the way. -/
theorem exists_put_or_exists_leaf (v u : Value) (names : List String) :
    (∃ u', Put v u names u') ∨ ∃ front w, front <+: names ∧ front ≠ names ∧
      Tree.resolveFrom u front = some w ∧ w.map? = none := by
  induction names generalizing u with
  | nil => exact .inl ⟨v, .here u⟩
  | cons name names ih =>
    by_cases hu : u.map? = none
    · exact .inr ⟨[], u, List.nil_prefix, (List.cons_ne_nil name names).symm, rfl, hu⟩
    · obtain ⟨t, rfl⟩ : ∃ t, u = .map t := by
        cases u with
        | map t => exact ⟨t, rfl⟩
        | _ => exact absurd rfl hu
      rcases ih (t.childAt name) with ⟨u', hput⟩ | ⟨front, w, hfront, hne, hw, hleaf⟩
      · exact .inl ⟨_, .inside hput⟩
      · exact .inr ⟨name :: front, w, List.cons_prefix_cons.mpr ⟨rfl, hfront⟩,
          fun h => hne (List.cons.inj h).2, Tree.resolveFrom_eq_some_of_childAt hw hleaf, hleaf⟩

end Value

/-! ### Writing to a tree -/

namespace Tree

variable {t t' : Tree} {name : String} {names front : List String} {v w : Value} {p q : Path}

theorem updateBelow_cons_cons (above : List String) (t : Tree) (name next : String)
    (rest : List String) (v : Value) :
    updateBelow above t (name :: next :: rest) v =
      match t.childAt name with
      | .map c =>
        (updateBelow (above ++ [name]) c (next :: rest) v).map fun c' => t.insert name (.map c')
      | w => .error (notMap (.ofList (above ++ [name])) w) := by
  rw [updateBelow, childAt]
  cases t.get? name with
  | none =>
    dsimp only [Option.getD_none]
    cases updateBelow (above ++ [name]) empty (next :: rest) v <;> rfl
  | some u =>
    cases u with
    | map c =>
      dsimp only [Option.getD_some]
      cases updateBelow (above ++ [name]) c (next :: rest) v <;> rfl
    | _ => rfl

theorem updateBelow_of_put (above : List String) (h : Value.Put v (.map t) names (.map t')) :
    updateBelow above t names v = .ok t' := by
  induction names generalizing above t t' with
  | nil =>
    cases h
    rfl
  | cons name names ih =>
    obtain ⟨u, hput, rfl⟩ : ∃ u, Value.Put v (t.childAt name) names u ∧ t' = t.insert name u := by
      cases h with
      | inside h => exact ⟨_, h, rfl⟩
    generalize hchild : t.childAt name = child at hput
    cases names with
    | nil =>
      cases hput
      rfl
    | cons next rest =>
      rw [updateBelow_cons_cons, hchild]
      cases hput with
      | inside hnext =>
        dsimp only
        rw [ih _ (.inside hnext)]
        rfl

theorem updateBelow_of_leaf (above : List String) (hfront : front <+: names) (hne : front ≠ names)
    (hnil : front ≠ []) (hw : resolveFrom (.map t) front = some w) (hleaf : w.map? = none) :
    updateBelow above t names v = .error (notMap (.ofList (above ++ front)) w) := by
  induction front generalizing above t names with
  | nil => exact absurd rfl hnil
  | cons name front ih =>
    obtain ⟨next, rest, rfl, hfront'⟩ :
        ∃ next rest, names = name :: next :: rest ∧ front <+: next :: rest := by
      obtain ⟨rest, rfl⟩ := hfront
      cases front with
      | nil =>
        cases rest with
        | nil => exact absurd rfl hne
        | cons next rest => exact ⟨next, rest, rfl, List.nil_prefix⟩
      | cons next front => exact ⟨next, front ++ rest, rfl, List.prefix_append _ _⟩
    have hchild := resolveFrom_childAt_eq_some hw
    rw [updateBelow_cons_cons]
    cases front with
    | nil =>
      cases hchild
      generalize t.childAt name = child at hleaf
      cases child with
      | map c => cases hleaf
      | _ => rfl
    | cons first front =>
      obtain ⟨c, -, hc, -⟩ := exists_map_of_resolveFrom_cons hchild
      rw [hc] at hchild ⊢
      dsimp only
      rw [ih _ hfront' (fun h => hne (h ▸ rfl)) (List.cons_ne_nil _ _) hchild]
      simp [Except.map]

/-- The leaf `w` is at `q`, on the way to a path, so that nothing can be put there. -/
structure Obstructs (t : Tree) (p q : Path) (w : Value) : Prop where
  above : q.segments <+: p.segments
  ne_root : q ≠ .root
  ne : q ≠ p
  found : t.resolve q = some w
  leaf : w.map? = none

/-- There is nothing below a leaf. -/
theorem resolveFrom_eq_some_of_leaf (hleaf : w.map? = none)
    (h : resolveFrom w names = some v) : names = [] ∧ v = w := by
  cases names with
  | nil => exact ⟨rfl, (Option.some.inj h).symm⟩
  | cons name names =>
    obtain ⟨t, -, rfl, -⟩ := exists_map_of_resolveFrom_cons h
    cases hleaf

theorem Obstructs.segments_eq_of_prefix {q' : Path} {w' : Value} (h : t.Obstructs p q w)
    (h' : t.Obstructs p q' w') (hq : q.segments <+: q'.segments) : q'.segments = q.segments := by
  obtain ⟨rest, hrest⟩ := hq
  have hw' := h'.found
  rw [resolve, ← hrest, resolveFrom_append, ← resolve, h.found, Option.bind_some] at hw'
  obtain ⟨rfl, -⟩ := resolveFrom_eq_some_of_leaf h.leaf hw'
  rw [← hrest, List.append_nil]

/-- There is one leaf on the way to a path at most. -/
theorem Obstructs.unique {q' : Path} {w' : Value} (h : t.Obstructs p q w)
    (h' : t.Obstructs p q' w') : q' = q := by
  apply Path.ext
  rcases List.prefix_or_prefix_of_prefix h.above h'.above with hq | hq
  · exact h.segments_eq_of_prefix h' hq
  · exact (h'.segments_eq_of_prefix h hq).symm

theorem Obstructs.update_eq_error (h : t.Obstructs p q w) (v : Value) :
    t.update p v = .error (notMap q w) := by
  have hne : q.segments ≠ p.segments := mt Path.ext h.ne
  have hnil : q.segments ≠ [] := fun heq => h.ne_root (Path.ext heq)
  rw [update, updateBelow_of_leaf [] h.above hne hnil h.found h.leaf, List.nil_append,
    Path.ofList_segments]

theorem update_root_eq_error (t : Tree) (hleaf : v.map? = none) :
    t.update .root v = .error (notMap .root v) := by
  cases v with
  | map m => cases hleaf
  | _ => rfl

theorem exists_put_or_obstructs (t : Tree) (p : Path) (v : Value) :
    (∃ t', Value.Put v (.map t) p.segments (.map t')) ∨
      p = .root ∧ v.map? = none ∨ ∃ q w, t.Obstructs p q w := by
  rcases Value.exists_put_or_exists_leaf v (.map t) p.segments with
    ⟨u, hput⟩ | ⟨front, w, hfront, hne, hw, hleaf⟩
  · obtain ⟨names, hnames⟩ := p
    cases hput with
    | inside h => exact .inl ⟨_, .inside h⟩
    | here =>
      cases v with
      | map m => exact .inl ⟨m, .here _⟩
      | _ => exact .inr (.inl ⟨rfl, rfl⟩)
  · have hnames : ∀ name ∈ front, name ≠ "" := fun name h => p.ne_empty name (hfront.subset h)
    refine .inr (.inr ⟨⟨front, hnames⟩, w, hfront, ?_, fun h => hne (h ▸ rfl), hw, hleaf⟩)
    rintro ⟨⟩
    cases hw
    cases hleaf

theorem update_eq_ok_iff : t.update p v = .ok t' ↔ Value.Put v (.map t) p.segments (.map t') := by
  refine ⟨fun h => ?_, updateBelow_of_put []⟩
  rcases exists_put_or_obstructs t p v with ⟨t'', hput⟩ | ⟨rfl, hleaf⟩ | ⟨q, w, hq⟩
  · rw [update, updateBelow_of_put [] hput, Except.ok.injEq] at h
    exact h ▸ hput
  · rw [update_root_eq_error t hleaf] at h
    cases h
  · rw [hq.update_eq_error] at h
    cases h

theorem update_eq_error_iff {e : Error} : t.update p v = .error e ↔
    p = .root ∧ v.map? = none ∧ e = notMap .root v ∨
      ∃ q w, t.Obstructs p q w ∧ e = notMap q w := by
  constructor
  · intro h
    rcases exists_put_or_obstructs t p v with ⟨t', hput⟩ | ⟨rfl, hleaf⟩ | ⟨q, w, hq⟩
    · rw [update_eq_ok_iff.mpr hput] at h
      cases h
    · rw [update_root_eq_error t hleaf, Except.error.injEq] at h
      exact .inl ⟨rfl, hleaf, h.symm⟩
    · rw [hq.update_eq_error, Except.error.injEq] at h
      exact .inr ⟨q, w, hq, h.symm⟩
  · rintro (⟨rfl, hleaf, rfl⟩ | ⟨q, w, hq, rfl⟩)
    · exact update_root_eq_error t hleaf
    · exact hq.update_eq_error v

/-- A second write at a path is as if the first had not been. -/
theorem update_of_update_eq_ok (h : t.update p v = .ok t') (w : Value) :
    t'.update p w = t.update p w := by
  obtain ⟨names, hnames⟩ := p
  have hput := update_eq_ok_iff.mp h
  obtain ⟨u, hw⟩ := hput.exists_put w
  cases hw with
  | here => rfl
  | inside hw =>
    have hfirst : t.update ⟨_, hnames⟩ w = .ok _ := update_eq_ok_iff.mpr (.inside hw)
    rw [hfirst]
    exact update_eq_ok_iff.mpr (hput.put (.inside hw))

/-- A map can be put wherever there is one. -/
theorem exists_put_of_resolve {m : Tree} (h : t.resolve p = some (.map m)) (m' : Tree) :
    ∃ t', Value.Put (.map m') (.map t) p.segments (.map t') := by
  obtain ⟨t', hupdate, -, -⟩ := updateBelow_append [] [] (.map m') h rfl
  rw [List.append_nil] at hupdate
  exact ⟨t', update_eq_ok_iff.mp hupdate⟩

/-- What becomes of a tree when a place other than the root is removed from it. -/
inductive Removed (t : Tree) (p : Path) : Tree → Prop where
  /-- Where nothing is, nothing is removed. -/
  | absent (h : t.resolve p = none) : Removed t p t
  /-- What is there is an entry of a map, which is put back without it. -/
  | taken {name : String} {m t' : Tree} (hp : p.segments = p.parent.segments ++ [name])
    (hm : t.resolve p.parent = some (.map m)) (hentry : (m.get? name).isSome)
    (hput : Value.Put (.map (m.erase name)) (.map t) p.parent.segments (.map t')) :
    Removed t p t'

theorem exists_remove (t : Tree) (hp : p ≠ .root) :
    ∃ t', t.remove p = .ok t' ∧ t.Removed p t' := by
  obtain ⟨name, hlast⟩ : ∃ name, p.segments = p.parent.segments ++ [name] := by
    have hne : p.segments ≠ [] := fun heq => hp (Path.ext heq)
    exact ⟨_, (List.dropLast_concat_getLast hne).symm⟩
  have hget : p.segments.getLast? = some name := by rw [hlast, List.getLast?_concat]
  simp only [remove, hget]
  split
  · rename_i m hm
    split
    · rename_i hentry
      obtain ⟨t', hput⟩ := exists_put_of_resolve hm (m.erase name)
      exact ⟨t', update_eq_ok_iff.mpr hput, .taken hlast hm hentry hput⟩
    · rename_i hentry
      refine ⟨t, rfl, .absent ?_⟩
      rw [resolve, hlast, resolveFrom_concat hm]
      simpa using hentry
  · rename_i hmap
    refine ⟨t, rfl, .absent ?_⟩
    rw [resolve, hlast, resolveFrom_append, ← resolve]
    cases hparent : t.resolve p.parent with
    | none => rfl
    | some w =>
      cases w with
      | map m => exact absurd hparent (hmap m)
      | _ => rfl

theorem Removed.of_remove (hp : p ≠ .root) (h : t.remove p = .ok t') : t.Removed p t' := by
  obtain ⟨t'', hremove, hremoved⟩ := exists_remove t hp
  rw [h, Except.ok.injEq] at hremove
  exact hremove ▸ hremoved

/-- A write of the application to its state tree. -/
theorem run_update (t : Tree) (journal : List JournalEntry) (p : Path) (v : Value) :
    (do UI.commit ((← UI.tree).update p v) : UI Unit).run ⟨t, journal⟩ =
      match t.update p v with
      | .ok t' => (.ok (), ⟨t', journal⟩)
      | .error e => (.error (.state e), ⟨t, journal⟩) := by
  rw [run_bind_of_ok (UI.run_tree ⟨t, journal⟩)]
  cases t.update p v <;> rfl

/-- **The laws of writing.** A write at a path fails exactly when a leaf would become the root, or a
leaf is on the way; the error names the place of the leaf, the first that there is on the way, and
the session stays as it was. When it succeeds, the value is at the path, so that what is below the
path is found in the value; above the path there are maps, and every place beside it is as before;
and writing at the path again is as if the first write had not been. -/
theorem update_laws (t : Tree) (p : Path) (v : Value) :
    ((∃ e, t.update p v = .error e) ↔
      p = .root ∧ v.map? = none ∨ ∃ q w, t.Obstructs p q w) ∧
    (∀ e, t.update p v = .error e →
      (p = .root ∧ e = notMap .root v ∨
        ∃ q w, t.Obstructs p q w ∧ (∀ q' w', t.Obstructs p q' w' → q.length ≤ q'.length) ∧
          e = notMap q w) ∧
      ∀ journal, (do UI.commit ((← UI.tree).update p v) : UI Unit).run ⟨t, journal⟩ =
        (.error (.state e), ⟨t, journal⟩)) ∧
    ∀ t', t.update p v = .ok t' →
      (∀ journal, (do UI.commit ((← UI.tree).update p v) : UI Unit).run ⟨t, journal⟩ =
        (.ok (), ⟨t', journal⟩)) ∧
      t'.resolve p = some v ∧
      (∀ q : Path, ¬ p.segments <+: q.segments → ¬ q.segments <+: p.segments →
        t'.resolve q = t.resolve q) ∧
      (∀ q : Path, t'.resolve (p ++ q) = resolveFrom v q.segments) ∧
      (∀ q : Path, q.segments <+: p.segments → q ≠ p → ∃ m, t'.resolve q = some (.map m)) ∧
      ∀ w, t'.update p w = t.update p w := by
  refine ⟨⟨fun ⟨e, he⟩ => ?_, fun h => ?_⟩, fun e he => ⟨?_, fun journal => ?_⟩, fun t' h => ?_⟩
  · rcases update_eq_error_iff.mp he with ⟨hroot, hleaf, -⟩ | ⟨q, w, hq, -⟩
    · exact .inl ⟨hroot, hleaf⟩
    · exact .inr ⟨q, w, hq⟩
  · rcases h with ⟨rfl, hleaf⟩ | ⟨q, w, hq⟩
    · exact ⟨_, update_root_eq_error t hleaf⟩
    · exact ⟨_, hq.update_eq_error v⟩
  · rcases update_eq_error_iff.mp he with ⟨hroot, -, he⟩ | ⟨q, w, hq, he⟩
    · exact .inl ⟨hroot, he⟩
    · exact .inr ⟨q, w, hq,
        fun q' w' hq' => Nat.le_of_eq (congrArg Path.length (hq.unique hq')).symm, he⟩
  · rw [run_update, he]
  · have hput := update_eq_ok_iff.mp h
    have hself : t'.resolve p = some v := hput.resolveFrom_self
    refine ⟨fun journal => by rw [run_update, h], hself,
      fun q => hput.resolveFrom_of_not_prefix, fun q => ?_, fun q hq hne => ?_,
      update_of_update_eq_ok h⟩
    · rw [resolve, Path.segments_append, resolveFrom_append, ← resolve, hself, Option.bind_some]
    · exact hput.exists_map hq (mt Path.ext hne)

end Tree

end TerminalUI
