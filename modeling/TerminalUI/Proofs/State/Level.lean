import TerminalUI.State.Tree

/-!
# Levels of the state tree

A component works on the map at its level. Reading an entry of the level is reading that map
(`resolve_child`); writing or removing one puts another map in its place, which is never an error, and
leaves everything that is neither above nor below the level as it was (`update_child`,
`remove_child`).
-/

namespace TerminalUI

namespace Tree

theorem get?_insert_self (t : Tree) (name : String) (value : Value) :
    (t.insert name value).get? name = some value := by
  rw [get?_insert, if_pos rfl]

theorem get?_insert_of_ne {t : Tree} {name key : String} (h : key ≠ name) (value : Value) :
    (t.insert name value).get? key = t.get? key := by
  rw [get?_insert, if_neg h]

/-- The tree with an entry under a name, which is the given one if none was there. -/
def withDefault (t : Tree) (name : String) (value : Value) : Tree :=
  if (t.get? name).isNone then t.insert name value else t

theorem get?_withDefault (t : Tree) (name key : String) (value : Value) :
    (t.withDefault name value).get? key =
      (t.get? key).or (if key = name then some value else none) := by
  unfold withDefault
  cases hentry : t.get? name with
  | none =>
    rw [if_pos (by rfl), get?_insert]
    by_cases hkey : key = name
    · rw [if_pos hkey, if_pos hkey, hkey, hentry, Option.none_or]
    · rw [if_neg hkey, if_neg hkey, Option.or_none]
  | some v =>
    rw [if_neg (by simp)]
    by_cases hkey : key = name
    · rw [hkey, hentry, Option.some_or]
    · rw [if_neg hkey, Option.or_none]

theorem withDefault_of_isSome {t : Tree} {name : String} (h : (t.get? name).isSome)
    (value : Value) : t.withDefault name value = t := by
  rw [withDefault, if_neg (by simpa [Option.isSome_iff_ne_none] using h)]

/-- The tree with the given entries where it has none. -/
def withDefaults (t : Tree) (entries : List (String × Value)) : Tree :=
  entries.foldl (fun t e => t.withDefault e.1 e.2) t

theorem withDefaults_nil (t : Tree) : t.withDefaults [] = t := rfl

theorem withDefaults_cons (t : Tree) (e : String × Value) (entries : List (String × Value)) :
    t.withDefaults (e :: entries) = (t.withDefault e.1 e.2).withDefaults entries := rfl

theorem get?_withDefaults (t : Tree) (entries : List (String × Value)) (key : String) :
    (t.withDefaults entries).get? key = (t.get? key).or (entries.lookup key) := by
  induction entries generalizing t with
  | nil => rw [withDefaults_nil, List.lookup_nil, Option.or_none]
  | cons e entries ih =>
    rw [withDefaults_cons, ih, get?_withDefault, List.lookup_cons, Option.or_assoc]
    by_cases hkey : key = e.1
    · rw [if_pos hkey, Option.some_or, hkey, beq_self_eq_true]
    · rw [if_neg hkey, Option.none_or, beq_false_of_ne hkey]

theorem withDefaults_of_isSome {t : Tree} {entries : List (String × Value)}
    (h : ∀ e ∈ entries, (t.get? e.1).isSome) : t.withDefaults entries = t := by
  induction entries with
  | nil => rfl
  | cons e entries ih =>
    rw [withDefaults_cons, withDefault_of_isSome (h e List.mem_cons_self)]
    exact ih fun e' he' => h e' (List.mem_cons_of_mem e he')

theorem resolveFrom_append (v : Value) (names rest : List String) :
    resolveFrom v (names ++ rest) = (resolveFrom v names).bind (resolveFrom · rest) := by
  induction names generalizing v with
  | nil => rfl
  | cons name names ih =>
    cases v with
    | map t =>
      simp only [List.cons_append, resolveFrom]
      cases t.get? name with
      | none => rfl
      | some v => exact ih v
    | _ => rfl

/-- A value at the end of a longer path is found in a map. -/
theorem exists_map_of_resolveFrom_cons {v w : Value} {name : String} {names : List String}
    (h : resolveFrom v (name :: names) = some w) :
    ∃ t child, v = .map t ∧ t.get? name = some child ∧ resolveFrom child names = some w := by
  cases v with
  | map t =>
    simp only [resolveFrom] at h
    cases hchild : t.get? name with
    | none =>
      rw [hchild] at h
      cases h
    | some child =>
      rw [hchild] at h
      exact ⟨t, child, rfl, hchild, h⟩
  | _ => cases h

/-- Below nothing there is nothing. -/
theorem resolveFrom_eq_none_below {v : Value} {front names : List String}
    (hfront : front <+: names) (h : resolveFrom v front = none) : resolveFrom v names = none := by
  obtain ⟨rest, rfl⟩ := hfront
  rw [resolveFrom_append, h, Option.bind_none]

/-- Above a map there are maps. -/
theorem exists_map_resolveFrom_above {v : Value} {front names : List String} {m : Tree}
    (hfront : front <+: names) (h : resolveFrom v names = some (.map m)) :
    ∃ m', resolveFrom v front = some (.map m') := by
  obtain ⟨rest, rfl⟩ := hfront
  rw [resolveFrom_append] at h
  obtain ⟨w, hw, hmap⟩ := Option.bind_eq_some_iff.mp h
  cases rest with
  | nil =>
    cases hmap
    exact ⟨m, hw⟩
  | cons name rest =>
    obtain ⟨m', -, rfl, -⟩ := exists_map_of_resolveFrom_cons hmap
    exact ⟨m', hw⟩

theorem resolveFrom_insert_of_ne {t : Tree} {name first : String} {v : Value}
    {names : List String} (h : first ≠ name) :
    resolveFrom (.map (t.insert name v)) (first :: names) =
      resolveFrom (.map t) (first :: names) := by
  simp only [resolveFrom, get?_insert_of_ne h]

theorem updateBelow_cons {above rest : List String} {t c c' : Tree} {name : String} {v : Value}
    (hc : t.get? name = some (.map c))
    (h : updateBelow (above ++ [name]) c rest v = .ok c') :
    updateBelow above t (name :: rest) v = .ok (t.insert name (.map c')) := by
  cases rest with
  | nil =>
    cases v with
    | map m =>
      simp only [updateBelow, Except.ok.injEq] at h
      rw [updateBelow, h]
    | _ => cases h
  | cons next rest =>
    rw [updateBelow, hc]
    simp only [h]

/-- Writing below a place that holds a map is writing to that map. -/
theorem updateBelow_append {names : List String} {t m m' : Tree} (above tail : List String)
    (v : Value) (ht : resolveFrom (.map t) names = some (.map m))
    (hm : updateBelow (above ++ names) m tail v = .ok m') :
    ∃ t', updateBelow above t (names ++ tail) v = .ok t' ∧
      resolveFrom (.map t') names = some (.map m') ∧
      ∀ q, ¬ names <+: q → ¬ q <+: names →
        resolveFrom (.map t') q = resolveFrom (.map t) q := by
  -- along the names, from the root down to the place; each map on the way is put back with its child
  induction names generalizing above t with
  | nil =>
    cases ht
    rw [List.append_nil] at hm
    exact ⟨m', hm, rfl, fun q hq => absurd List.nil_prefix hq⟩
  | cons name names ih =>
    obtain ⟨_, child, ⟨⟩, hchild, hrest⟩ := exists_map_of_resolveFrom_cons ht
    obtain ⟨c, rfl⟩ : ∃ c, child = .map c := by
      cases names with
      | nil => exact ⟨m, Option.some.inj hrest⟩
      | cons next names =>
        obtain ⟨c, -, hc, -⟩ := exists_map_of_resolveFrom_cons hrest
        exact ⟨c, hc⟩
    obtain ⟨c', hupdate, hresolve, hsame⟩ :=
      ih (above ++ [name]) hrest (by simpa using hm)
    refine ⟨t.insert name (.map c'), updateBelow_cons hchild hupdate, ?_, ?_⟩
    · simpa [resolveFrom, get?_insert] using hresolve
    · intro q hbelow habove
      cases q with
      | nil => exact absurd List.nil_prefix habove
      | cons first q =>
        by_cases hfirst : first = name
        · subst hfirst
          simp only [List.cons_prefix_cons, true_and] at hbelow habove
          simpa [resolveFrom, get?_insert, hchild] using hsame q hbelow habove
        · exact resolveFrom_insert_of_ne hfirst

/-- Trees that agree at every place that is neither above nor below a level. -/
def SameOutside (level : Path) (t t' : Tree) : Prop :=
  ∀ p : Path, ¬ level.segments <+: p.segments → ¬ p.segments <+: level.segments →
    t'.resolve p = t.resolve p

theorem SameOutside.refl (level : Path) (t : Tree) : SameOutside level t t := fun _ _ _ => rfl

theorem SameOutside.trans {level : Path} {t t' t'' : Tree} (h : SameOutside level t t')
    (h' : SameOutside level t' t'') : SameOutside level t t'' :=
  fun p hbelow habove => (h' p hbelow habove).trans (h p hbelow habove)

theorem resolve_root (t : Tree) : t.resolve .root = some (.map t) := rfl

variable {level : Path} {t m : Tree} {name : Name}

/-- What is an entry of a map is found below the place of the map. -/
theorem resolveFrom_concat {v : Value} {names : List String}
    (hv : resolveFrom v names = some (.map m)) (key : String) :
    resolveFrom v (names ++ [key]) = m.get? key := by
  rw [resolveFrom_append, hv]
  simp only [Option.bind_some, resolveFrom]
  cases m.get? key <;> rfl

theorem resolve_child (ht : t.resolve level = some (.map m)) :
    t.resolve (level.child name) = m.get? name := by
  rw [resolve, Path.segments_child]
  exact resolveFrom_concat ht name

theorem update_child (ht : t.resolve level = some (.map m)) (v : Value) :
    ∃ t', t.update (level.child name) v = .ok t' ∧
      t'.resolve level = some (.map (m.insert name v)) ∧ SameOutside level t t' := by
  obtain ⟨t', hupdate, hresolve, hsame⟩ := updateBelow_append [] [name] v ht rfl
  exact ⟨t', by rw [update, Path.segments_child, hupdate], hresolve, fun p => hsame _⟩

theorem remove_child (ht : t.resolve level = some (.map m)) (hentry : (m.get? name).isSome) :
    ∃ t', t.remove (level.child name) = .ok t' ∧
      t'.resolve level = some (.map (m.erase name)) ∧ SameOutside level t t' := by
  obtain ⟨t', hupdate, hresolve, hsame⟩ :=
    updateBelow_append [] [] (.map (m.erase name)) ht rfl
  refine ⟨t', ?_, hresolve, fun p => hsame _⟩
  rw [List.append_nil] at hupdate
  simp only [remove, Path.segments_child, Path.parent_child, List.getLast?_concat, ht,
    if_pos hentry]
  exact hupdate

end Tree

end TerminalUI
