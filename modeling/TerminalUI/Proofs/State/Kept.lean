import TerminalUI.Proofs.State.Writing

/-!
# The components kept in a state tree

A tree can hold components, and these can hold others again: in the values that they are seeded
with, and as the parts of a stack. `Tree.keepsOnly` says of a tree that all of them, however deep,
are of some sort. What is read from such a tree is of the sort (`Tree.keepsOnly_of_resolve`), and a
write of a value that is of the sort keeps it so (`Tree.keepsOnly_update`, `Tree.keepsOnly_remove`).
This is so for every property that a map hands on to what is in it (`Value.Hereditary`).
-/

namespace TerminalUI

/-! ### Properties that are handed on -/

namespace Value

/-- A property that a map hands on to its entries, and keeps when an entry with the property is put
into it or one is taken out. -/
structure Hereditary (P : Value → Prop) : Prop where
  empty : P (.map .empty)
  get? : ∀ {t : Tree} {name : String} {v : Value}, P (.map t) → t.get? name = some v → P v
  insert : ∀ {t : Tree} {v : Value} (name : String), P (.map t) → P v → P (.map (t.insert name v))
  erase : ∀ {t : Tree} (name : String), P (.map t) → P (.map (t.erase name))

namespace Hereditary

variable {P : Value → Prop} {t t' : Tree} {p : Path} {names : List String} {u u' v w : Value}

theorem childAt (hP : Hereditary P) (ht : P (.map t)) (name : String) : P (t.childAt name) := by
  rw [Tree.childAt]
  cases hchild : t.get? name with
  | none => exact hP.empty
  | some v => exact hP.get? ht hchild

theorem of_resolveFrom (hP : Hereditary P) (hv : P v) (h : Tree.resolveFrom v names = some w) :
    P w := by
  induction names generalizing v with
  | nil =>
    cases h
    exact hv
  | cons name names ih =>
    obtain ⟨t, child, rfl, hchild, hrest⟩ := Tree.exists_map_of_resolveFrom_cons h
    exact ih (hP.get? hv hchild) hrest

theorem put (hP : Hereditary P) (h : Put v u names u') (hv : P v) (hu : P u) : P u' := by
  induction h with
  | here u => exact hv
  | inside _ ih => exact hP.insert _ hu (ih (hP.childAt hu _))

theorem update (hP : Hereditary P) (ht : P (.map t)) (hv : P v) (h : t.update p v = .ok t') :
    P (.map t') :=
  hP.put (Tree.update_eq_ok_iff.mp h) hv ht

theorem remove (hP : Hereditary P) (ht : P (.map t)) (h : t.remove p = .ok t') :
    P (.map t') := by
  by_cases hp : p = .root
  · subst hp
    cases h
    exact hP.empty
  · cases Tree.Removed.of_remove hp h with
    | absent => exact ht
    | @taken name _ _ _ hm _ hput => exact hP.put hput (hP.erase name (hP.of_resolveFrom ht hm)) ht

end Hereditary

end Value

/-! ### Components of a sort -/

mutual

/-- Are all components in the value of a sort? -/
def Value.keepsOnly (sort : Blueprint → Bool) : Value → Bool
  | .map t => t.keepsOnly sort
  | .component b => b.keepsOnly sort
  | _ => true

/-- Are all components in the tree of a sort? -/
def Tree.keepsOnly (sort : Blueprint → Bool) : Tree → Bool
  | .ofEntries es => es.keepsOnly sort

/-- Are all components in the entries of a sort? -/
def Entries.keepsOnly {bound : Option String} (sort : Blueprint → Bool) : Entries bound → Bool
  | .nil => true
  | .cons _ _ v rest => v.keepsOnly sort && rest.keepsOnly sort

/-- Is the component of a sort, with all that it is configured with? -/
def Blueprint.keepsOnly (sort : Blueprint → Bool) : Blueprint → Bool
  | .stack arrangement gap parts =>
    sort (.stack arrangement gap parts) && parts.keepsOnly sort
  | .seeded path value inner =>
    sort (.seeded path value inner) && value.keepsOnly sort && inner.keepsOnly sort
  | b => sort b

/-- Are all parts of a sort? -/
def Parts.keepsOnly (sort : Blueprint → Bool) : Parts → Bool
  | .none => true
  | .part _ b rest => b.keepsOnly sort && rest.keepsOnly sort

end

mutual

/-- Every value holds components of no matter what sort. -/
theorem Value.keepsOnly_true (v : Value) : v.keepsOnly (fun _ => true) = true := by
  match v with
  | .map t => exact t.keepsOnly_true
  | .component b => exact b.keepsOnly_true
  | .string _ | .bool _ | .word _ | .index _ | .integer _ | .styled _ | .buffer _ | .overlay _
  | .abbreviations _ | .highlighter _ | .items _ | .submit _ | .generator _ | .strings _
  | .node _ | .todos _ | .press _ => rfl

theorem Tree.keepsOnly_true (t : Tree) : t.keepsOnly (fun _ => true) = true := by
  match t with
  | .ofEntries es => exact es.keepsOnly_true

theorem Entries.keepsOnly_true {bound : Option String} (es : Entries bound) :
    es.keepsOnly (fun _ => true) = true := by
  match es with
  | .nil => rfl
  | .cons _ _ v rest => simp [Entries.keepsOnly, v.keepsOnly_true, rest.keepsOnly_true]

theorem Blueprint.keepsOnly_true (b : Blueprint) : b.keepsOnly (fun _ => true) = true := by
  match b with
  | .stack _ _ parts => simp [Blueprint.keepsOnly, parts.keepsOnly_true]
  | .seeded _ v inner => simp [Blueprint.keepsOnly, v.keepsOnly_true, inner.keepsOnly_true]
  | .codeArea | .listBox | .comboBox | .button | .wrapper | .blank | .counter | .temperature
  | .flight | .wizard | .todo | .navigator | .still _ | .echo _ | .tally _ | .frozen
  | .made _ => rfl

theorem Parts.keepsOnly_true (parts : Parts) : parts.keepsOnly (fun _ => true) = true := by
  match parts with
  | .none => rfl
  | .part _ b rest => simp [Parts.keepsOnly, b.keepsOnly_true, rest.keepsOnly_true]

end

/-- A component of a sort, with all that it is configured with, is itself of the sort. -/
theorem Blueprint.sort_of_keepsOnly {sort : Blueprint → Bool} {b : Blueprint}
    (h : b.keepsOnly sort = true) : sort b = true := by
  cases b with
  | stack arrangement gap parts =>
    simp only [keepsOnly, Bool.and_eq_true] at h
    exact h.1
  | seeded path value inner =>
    simp only [keepsOnly, Bool.and_eq_true] at h
    exact h.1.1
  | _ => exact h

namespace Entries

variable {bound : Option String} {sort : Blueprint → Bool} {name : String} {v : Value}

theorem keepsOnly_insert {bound : Option String} {es : Entries bound}
    (hes : es.keepsOnly sort = true) (h : Follows bound name) (hv : v.keepsOnly sort = true) :
    (es.insert name h v).keepsOnly sort = true := by
  match es with
  | .nil => simp [insert, keepsOnly, hv]
  | .cons k hk u rest =>
    simp only [keepsOnly, Bool.and_eq_true] at hes
    by_cases hname : name = k
    · simp [insert, hname, keepsOnly, hv, hes.2]
    · by_cases hlt : name < k
      · simp [insert, hname, hlt, keepsOnly, hv, hes.1, hes.2]
      · have ih := keepsOnly_insert hes.2 (.of_not_lt hname hlt) hv
        simp [insert, hname, hlt, keepsOnly, hes.1, ih]

theorem keepsOnly_erase {bound : Option String} {es : Entries bound}
    (hes : es.keepsOnly sort = true) (name : String) : (es.erase name).keepsOnly sort = true := by
  match es with
  | .nil => rfl
  | .cons k hk u rest =>
    simp only [keepsOnly, Bool.and_eq_true] at hes
    rw [erase]
    split
    · cases rest with
      | nil => rfl
      | cons => exact hes.2
    · simp [keepsOnly, hes.1, keepsOnly_erase hes.2 name]

theorem keepsOnly_of_get? {bound : Option String} {es : Entries bound}
    (hes : es.keepsOnly sort = true) (h : es.get? name = some v) : v.keepsOnly sort = true := by
  match es with
  | .nil => cases h
  | .cons k hk u rest =>
    simp only [keepsOnly, Bool.and_eq_true] at hes
    by_cases hname : name = k
    · rw [get?, if_pos hname, Option.some.injEq] at h
      exact h ▸ hes.1
    · rw [get?, if_neg hname] at h
      exact keepsOnly_of_get? hes.2 h

end Entries

namespace Tree

variable {sort : Blueprint → Bool} {name : String} {t : Tree} {v : Value}

theorem keepsOnly_insert (ht : t.keepsOnly sort = true) (name : String)
    (hv : v.keepsOnly sort = true) : (t.insert name v).keepsOnly sort = true := by
  cases t with
  | ofEntries es => exact es.keepsOnly_insert ht (.all name) hv

theorem keepsOnly_erase (ht : t.keepsOnly sort = true) (name : String) :
    (t.erase name).keepsOnly sort = true := by
  cases t with
  | ofEntries es => exact es.keepsOnly_erase ht name

theorem keepsOnly_of_get? (ht : t.keepsOnly sort = true) (h : t.get? name = some v) :
    v.keepsOnly sort = true := by
  cases t with
  | ofEntries es => exact es.keepsOnly_of_get? ht h

theorem keepsOnly_hereditary (sort : Blueprint → Bool) :
    Value.Hereditary fun v => v.keepsOnly sort = true where
  empty := rfl
  get? ht h := keepsOnly_of_get? ht h
  insert name ht hv := keepsOnly_insert ht name hv
  erase name ht := keepsOnly_erase ht name

end Tree

/-- A value of a sort, put into another one of the sort, gives one of the sort. -/
theorem Value.Put.keepsOnly {sort : Blueprint → Bool} {v u u' : Value} {names : List String}
    (h : Put v u names u') (hv : v.keepsOnly sort = true) (hu : u.keepsOnly sort = true) :
    u'.keepsOnly sort = true :=
  (Tree.keepsOnly_hereditary sort).put h hv hu

namespace Tree

variable {sort : Blueprint → Bool} {t t' : Tree} {p : Path} {names : List String} {v w : Value}

theorem keepsOnly_of_resolveFrom (hv : v.keepsOnly sort = true)
    (h : resolveFrom v names = some w) : w.keepsOnly sort = true :=
  (keepsOnly_hereditary sort).of_resolveFrom hv h

theorem keepsOnly_of_resolve (ht : t.keepsOnly sort = true) (h : t.resolve p = some v) :
    v.keepsOnly sort = true :=
  keepsOnly_of_resolveFrom (v := .map t) ht h

theorem keepsOnly_update (ht : t.keepsOnly sort = true) (hv : v.keepsOnly sort = true)
    (h : t.update p v = .ok t') : t'.keepsOnly sort = true :=
  (keepsOnly_hereditary sort).update (t := t) ht hv h

theorem keepsOnly_remove (ht : t.keepsOnly sort = true) (h : t.remove p = .ok t') :
    t'.keepsOnly sort = true :=
  (keepsOnly_hereditary sort).remove (t := t) ht h

end Tree

end TerminalUI
