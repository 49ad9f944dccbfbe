import TerminalUI.Proofs.State.Growth

/-!
# The contents of a tree

`Tree.contentAt` tells what a tree has where names lead to, without what is below: nothing, a map or
a leaf. Trees that agree on this everywhere have the same contents (`Tree.SameContents`), and as the
entries of a map are in order, they are the same (`Tree.SameContents.eq`). A map can have an entry
under the empty name, which no path leads to, so the names here are not only those of paths.

* `Tree.contentAt_update` : the contents after a write, at every place, from those before.
* `Tree.exists_update_iff` : whether a write succeeds is decided by the contents above its place.
-/

namespace TerminalUI

/-- What is at a place, without what is below it. -/
inductive Content where
  | map
  | leaf (v : Value)

namespace Value

/-- The value without what is below it. -/
def content : Value → Content
  | .map _ => .map
  | v => .leaf v

/-- What is where names lead to, starting at a value. -/
def contentAt (v : Value) (names : List String) : Option Content :=
  (Tree.resolveFrom v names).map content

variable {v w : Value}

theorem content_eq_map_iff : v.content = .map ↔ ∃ t, v = .map t := by
  cases v <;> simp [content]

theorem content_eq_leaf_iff : v.content = .leaf w ↔ v = w ∧ w.map? = none := by
  constructor
  · intro h
    cases v with
    | map t => cases h
    | _ =>
      cases h
      exact ⟨rfl, rfl⟩
  · rintro ⟨rfl, hleaf⟩
    cases v with
    | map t => cases hleaf
    | _ => rfl

theorem contentAt_cons (t : Tree) (name : String) (names : List String) :
    (Value.map t).contentAt (name :: names) = (t.get? name).bind (·.contentAt names) := by
  rw [contentAt, Tree.resolveFrom_cons]
  cases t.get? name <;> rfl

theorem isSome_contentAt_singleton (t : Tree) (name : String) :
    ((Value.map t).contentAt [name]).isSome = (t.get? name).isSome := by
  rw [contentAt_cons]
  cases t.get? name <;> rfl

end Value

namespace Tree

variable {t : Tree} {names : List String} {v w : Value}

/-- What the tree has where names lead to, without what is below it. -/
def contentAt (t : Tree) (names : List String) : Option Content := (Value.map t).contentAt names

theorem contentAt_eq_none_iff : t.contentAt names = none ↔ resolveFrom (.map t) names = none :=
  Option.map_eq_none_iff

theorem isSome_contentAt : (t.contentAt names).isSome = (resolveFrom (.map t) names).isSome :=
  Option.isSome_map

theorem contentAt_eq_map_iff :
    t.contentAt names = some .map ↔ ∃ m, resolveFrom (.map t) names = some (.map m) := by
  rw [contentAt, Value.contentAt, Option.map_eq_some_iff]
  constructor
  · rintro ⟨v, hv, hmap⟩
    obtain ⟨m, rfl⟩ := Value.content_eq_map_iff.mp hmap
    exact ⟨m, hv⟩
  · rintro ⟨m, hm⟩
    exact ⟨.map m, hm, rfl⟩

theorem contentAt_eq_leaf_iff :
    t.contentAt names = some (.leaf w) ↔ resolveFrom (.map t) names = some w ∧ w.map? = none := by
  rw [contentAt, Value.contentAt, Option.map_eq_some_iff]
  constructor
  · rintro ⟨v, hv, hleaf⟩
    obtain ⟨rfl, hw⟩ := Value.content_eq_leaf_iff.mp hleaf
    exact ⟨hv, hw⟩
  · rintro ⟨hw, hleaf⟩
    exact ⟨w, hw, Value.content_eq_leaf_iff.mpr ⟨rfl, hleaf⟩⟩

/-- What is below a place is what is in the value that is there. -/
theorem contentAt_append (h : resolveFrom (.map t) names = some v) (rest : List String) :
    t.contentAt (names ++ rest) = v.contentAt rest := by
  rw [contentAt, Value.contentAt, resolveFrom_append, h, Option.bind_some, Value.contentAt]

/-- A name is that of an entry if there is something at its place. -/
theorem isSome_contentAt_concat {m : Tree} (hm : resolveFrom (.map t) names = some (.map m))
    (name : String) : (t.contentAt (names ++ [name])).isSome = (m.get? name).isSome := by
  rw [isSome_contentAt, resolveFrom_concat hm]

/-- Trees that have the same wherever names lead to. -/
def SameContents (t t' : Tree) : Prop := ∀ names, t'.contentAt names = t.contentAt names

end Tree

/-! ### Trees with the same contents -/

namespace Entries

variable {bound : Option String} {name : String} {v : Value}

/-- The first one of some entries has the least name. -/
theorem le_of_isSome {follows : Follows bound name} {rest : Entries (some name)} {key : String}
    (hkey : ((cons name follows v rest).get? key).isSome) : name ≤ key := by
  rw [get?] at hkey
  split at hkey
  · rename_i heq
    exact heq ▸ String.le_refl name
  · obtain ⟨w, hw⟩ := Option.isSome_iff_exists.mp hkey
    exact String.not_lt.mp (String.lt_asymm (follows_of_get? hw name rfl))

end Entries

mutual

theorem Value.eq_of_contentAt_eq {v v' : Value}
    (h : ∀ names, v'.contentAt names = v.contentAt names) : v' = v := by
  have hself : v'.content = v.content := Option.some.inj (h [])
  match v with
  | .map t =>
    obtain ⟨t', rfl⟩ := Value.content_eq_map_iff.mp hself
    exact congrArg Value.map (Tree.eq_of_contentAt_eq h)
  | .string _ | .bool _ | .word _ | .index _ | .integer _ | .styled _ | .buffer _ | .overlay _
  | .abbreviations _ | .highlighter _ | .items _ | .submit _ | .generator _ | .component _
  | .strings _ | .node _ | .todos _ | .press _ => exact (Value.content_eq_leaf_iff.mp hself).1

/-- A tree is determined by what is at every place. -/
theorem Tree.eq_of_contentAt_eq {t t' : Tree}
    (h : ∀ names, (Value.map t').contentAt names = (Value.map t).contentAt names) : t' = t := by
  match t, t' with
  | .ofEntries es, .ofEntries es' =>
    refine congrArg Tree.ofEntries (Entries.eq_of_contentAt_eq fun name names => ?_)
    have hnames := h (name :: names)
    rwa [Value.contentAt_cons, Value.contentAt_cons] at hnames

theorem Entries.eq_of_contentAt_eq {bound : Option String} {es es' : Entries bound}
    (h : ∀ name names, (es'.get? name).bind (·.contentAt names) =
      (es.get? name).bind (·.contentAt names)) : es' = es := by
  have hbind (o : Option Value) : (o.bind (·.contentAt [])).isSome = o.isSome := by
    cases o <;> rfl
  have hsome (name : String) : (es'.get? name).isSome = (es.get? name).isSome := by
    rw [← hbind, h, hbind]
  match es, es' with
  | .nil, .nil => rfl
  | .nil, .cons name _ v rest =>
    have hname := hsome name
    simp [Entries.get?] at hname
  | .cons name _ v rest, .nil =>
    have hname := hsome name
    simp [Entries.get?] at hname
  | .cons name hname v rest, .cons name' hname' v' rest' =>
    -- the first names are the least ones, so they are the same
    have hself {k : String} (hk : Follows bound k) (u : Value) (rest : Entries (some k)) :
        ((Entries.cons k hk u rest).get? k).isSome := by simp [Entries.get?]
    obtain rfl : name' = name :=
      String.le_antisymm (Entries.le_of_isSome (hsome name ▸ hself hname v rest))
        (Entries.le_of_isSome (hsome name' ▸ hself hname' v' rest'))
    have hfirst : v' = v := by
      refine Value.eq_of_contentAt_eq fun names => ?_
      simpa [Entries.get?] using h name' names
    have hrest : rest' = rest := by
      refine Entries.eq_of_contentAt_eq fun key names => ?_
      by_cases hkey : key = name'
      · -- the name of the first entry is not among the others
        rw [hkey, Entries.get?_self, Entries.get?_self]
      · have hnames := h key names
        rwa [Entries.get?, if_neg hkey, Entries.get?, if_neg hkey] at hnames
    rw [hfirst, hrest]

end

/-- Trees with the same contents are the same. -/
theorem Tree.SameContents.eq {t t' : Tree} (h : SameContents t t') : t' = t :=
  Tree.eq_of_contentAt_eq h

/-! ### Contents after a write -/

namespace Tree

variable {t t' : Tree} {p q : Path} {v w : Value}

/-- After a write, the value is at its place, maps are above, and all else is as before. -/
theorem contentAt_update (h : t.update p v = .ok t') (names : List String) :
    t'.contentAt names =
      if p.segments <+: names then v.contentAt (names.drop p.length)
      else if names <+: p.segments then some .map
      else t.contentAt names := by
  have hput := update_eq_ok_iff.mp h
  split
  · rename_i hbelow
    obtain ⟨rest, rfl⟩ := hbelow
    rw [contentAt_append hput.resolveFrom_self, Path.length, List.drop_left]
  · rename_i hbelow
    split
    · rename_i habove
      have hne : names ≠ p.segments := fun heq => hbelow (heq ▸ List.prefix_refl _)
      exact contentAt_eq_map_iff.mpr (hput.exists_map habove hne)
    · rename_i habove
      exact congrArg (Option.map Value.content) (hput.resolveFrom_of_not_prefix hbelow habove)

/-- Whether a leaf is in the way is decided by the contents. -/
theorem obstructs_iff : t.Obstructs p q w ↔
    q.segments <+: p.segments ∧ q ≠ .root ∧ q ≠ p ∧ t.contentAt q.segments = some (.leaf w) := by
  rw [contentAt_eq_leaf_iff]
  constructor
  · intro h
    exact ⟨h.above, h.ne_root, h.ne, h.found, h.leaf⟩
  · rintro ⟨habove, hroot, hne, hfound, hleaf⟩
    exact ⟨habove, hroot, hne, hfound, hleaf⟩

theorem exists_update_iff (hp : p ≠ .root) :
    (∃ t', t.update p v = .ok t') ↔ ∀ q w, ¬ t.Obstructs p q w := by
  constructor
  · rintro ⟨t', h⟩ q w hq
    rw [hq.update_eq_error] at h
    cases h
  · intro h
    rcases exists_put_or_obstructs t p v with ⟨t', hput⟩ | ⟨hroot, -⟩ | ⟨q, w, hq⟩
    · exact ⟨t', update_eq_ok_iff.mpr hput⟩
    · exact absurd hroot hp
    · exact absurd hq (h q w)

end Tree

end TerminalUI
