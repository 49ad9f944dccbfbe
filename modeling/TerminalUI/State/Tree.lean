import TerminalUI.State.Value

/-!
# Reading and writing the state tree

A tree is never changed: a write gives a new one. `Tree.resolve` follows a path to a value,
`Tree.update` puts a value at a path and makes the maps on the way that are missing, and
`Tree.remove` takes an entry away. A write cannot lead through a leaf.

The entries of a map are in the order of their names by construction (`Entries`), which a new entry
and one that is taken away leave so.
-/

namespace TerminalUI

theorem Follows.of_lt {name other : String} (h : name < other) : Follows (some name) other := by
  rintro _ ⟨⟩
  exact h

theorem Follows.trans {bound : Option String} {name other : String} (h : Follows bound name)
    (h' : Follows (some name) other) : Follows bound other :=
  fun b hb => String.lt_trans (h b hb) (h' name rfl)

theorem Follows.of_not_lt {name other : String} (hne : name ≠ other) (hlt : ¬ name < other) :
    Follows (some other) name := by
  refine .of_lt (Decidable.byContradiction fun hge => hne ?_)
  exact String.le_antisymm (String.not_lt.mp hge) (String.not_lt.mp hlt)

theorem Follows.all (name : String) : Follows none name := nofun

namespace Entries

variable {bound bound' : Option String} {name key : String} {value : Value}

/-- The entries as a list. -/
def toList {bound : Option String} : Entries bound → List (String × Value)
  | .nil => []
  | .cons k _ v rest => (k, v) :: rest.toList

/-- The value under a name. -/
def get? {bound : Option String} (es : Entries bound) (name : String) : Option Value :=
  match es with
  | .nil => none
  | .cons k _ v rest => if name = k then some v else rest.get? name

/-- The entries with a value under a name, in the place of one that was there before. -/
def insert {bound : Option String} (es : Entries bound) (name : String) (h : Follows bound name)
    (value : Value) : Entries bound :=
  match es with
  | .nil => .cons name h value .nil
  | .cons k hk v rest =>
    if heq : name = k then .cons k hk value rest
    else if hlt : name < k then .cons name h value (.cons k (.of_lt hlt) v rest)
    else .cons k hk v (rest.insert name (.of_not_lt heq hlt) value)

/-- The entries with another bound. -/
def widen {bound bound' : Option String} (h : ∀ name, Follows bound name → Follows bound' name) :
    Entries bound → Entries bound'
  | .nil => .nil
  | .cons k hk v rest => .cons k (h k hk) v rest

/-- The entries without the one under a name. -/
def erase {bound : Option String} (es : Entries bound) (name : String) : Entries bound :=
  match es with
  | .nil => .nil
  | .cons k hk v rest =>
    if name = k then rest.widen fun _ h => hk.trans h else .cons k hk v (rest.erase name)

theorem follows_of_get? {bound : Option String} {es : Entries bound}
    (h : es.get? name = some value) : Follows bound name := by
  match es with
  | .nil => cases h
  | .cons k hk v rest =>
    rw [get?] at h
    split at h
    · rename_i heq
      exact heq ▸ hk
    · exact hk.trans (follows_of_get? h)

/-- The entries after another one have other names. -/
theorem get?_self {rest : Entries (some name)} : rest.get? name = none := by
  cases h : rest.get? name with
  | none => rfl
  | some v => exact absurd (follows_of_get? h name rfl) (String.lt_irrefl name)

theorem get?_insert {bound : Option String} (name key : String) (h : Follows bound name)
    (value : Value) (es : Entries bound) :
    (es.insert name h value).get? key = if key = name then some value else es.get? key := by
  match es with
  | .nil => simp [insert, get?]
  | .cons k hk v rest =>
    rw [insert]
    split
    · rename_i heq
      subst heq
      by_cases hkey : key = name <;> simp [get?, hkey]
    · rename_i hne
      split
      · simp [get?]
      · have ih := get?_insert name key (.of_not_lt hne ‹_›) value rest
        by_cases hkey : key = k
        · have hother : key ≠ name := fun h => hne (h.symm.trans hkey)
          simp [get?, hkey, hkey ▸ hother]
        · simp [get?, hkey, ih]

theorem get?_widen (h : ∀ name, Follows bound name → Follows bound' name) (es : Entries bound)
    (key : String) : (es.widen h).get? key = es.get? key := by
  cases es <;> rfl

theorem get?_erase {bound : Option String} (name key : String) (es : Entries bound) :
    (es.erase name).get? key = if key = name then none else es.get? key := by
  match es with
  | .nil => simp [erase, get?]
  | .cons k hk v rest =>
    rw [erase]
    by_cases hk : name = k
    · subst hk
      rw [if_pos rfl, get?_widen]
      by_cases hkey : key = name
      · rw [if_pos hkey, hkey, get?_self]
      · simp [get?, hkey]
    · have ih := get?_erase name key rest
      by_cases hkey : key = k
      · have hne : key ≠ name := fun h => hk (h.symm.trans hkey)
        simp [get?, hk, hkey, hkey ▸ hne]
      · simp [get?, hk, hkey, ih]

theorem get?_eq_lookup {bound : Option String} (es : Entries bound) (name : String) :
    es.get? name = es.toList.lookup name := by
  match es with
  | .nil => rfl
  | .cons k _ v rest =>
    by_cases h : name = k
    · simp [get?, toList, h]
    · have hb : (name == k) = false := by simpa using h
      simp [get?, toList, List.lookup_cons, h, hb, get?_eq_lookup rest name]

end Entries

namespace Tree

/-- The entries, in order. -/
def entries : Tree → Entries none
  | .ofEntries es => es

/-- The entries as a list, in order. -/
def toList (t : Tree) : List (String × Value) := t.entries.toList

/-- The value under a name. -/
def get? (t : Tree) (name : String) : Option Value := t.entries.get? name

/-- The tree with a value under a name, in the place of one that was there before. -/
def insert (t : Tree) (name : String) (value : Value) : Tree :=
  .ofEntries (t.entries.insert name (.all name) value)

/-- The tree without the entry under a name. -/
def erase (t : Tree) (name : String) : Tree := .ofEntries (t.entries.erase name)

/-- The names of the entries, in order. -/
def names (t : Tree) : List String := t.toList.map Prod.fst

/-- Number of entries. -/
def size (t : Tree) : Nat := t.toList.length

/-- Is there no entry? -/
def isEmpty (t : Tree) : Bool := t.toList.isEmpty

/-- The tree of the given entries; of several under one name, the last. -/
def ofList (entries : List (String × Value)) : Tree :=
  entries.foldl (fun t (name, value) => t.insert name value) .empty

theorem get?_insert (name key : String) (value : Value) (t : Tree) :
    (t.insert name value).get? key = if key = name then some value else t.get? key :=
  t.entries.get?_insert name key (.all name) value

theorem get?_erase (name key : String) (t : Tree) :
    (t.erase name).get? key = if key = name then none else t.get? key :=
  t.entries.get?_erase name key

theorem get?_eq_lookup (t : Tree) (name : String) : t.get? name = t.toList.lookup name :=
  t.entries.get?_eq_lookup name

/-- The value that names lead to, starting at a value. -/
def resolveFrom : Value → List String → Option Value
  | v, [] => some v
  | .map t, name :: rest =>
    match t.get? name with
    | some v => resolveFrom v rest
    | none => none
  | _, _ :: _ => none

/-- The value at a path. -/
def resolve (t : Tree) (p : Path) : Option Value := resolveFrom (.map t) p.segments

/-- The error of a value that is no map where a map has to be. -/
def notMap (place : Path) (found : Value) : Error :=
  .stateType place Kind.map.typeName found.kind.typeName

/-- Writes a value where names lead to, below a map that the names `above` lead to. -/
def updateBelow (above : List String) (t : Tree) (names : List String) (value : Value) :
    Except Error Tree :=
  match names with
  | [] =>
    match value with
    | .map t' => .ok t'
    | v => .error (notMap (.ofList above) v)
  | [name] => .ok (t.insert name value)
  | name :: next :: rest =>
    let child : Except Error Tree := match t.get? name with
      | none => .ok .empty
      | some (.map c) => .ok c
      | some v => .error (notMap (.ofList (above ++ [name])) v)
    match child with
    | .error e => .error e
    | .ok c =>
      match updateBelow (above ++ [name]) c (next :: rest) value with
      | .ok c' => .ok (t.insert name (.map c'))
      | .error e => .error e

/-- The tree with a value at a path. The value at the root has to be a map. -/
def update (t : Tree) (p : Path) (value : Value) : Except Error Tree :=
  updateBelow [] t p.segments value

/-- The tree without the entry at a path; the empty tree for the path to the root. -/
def remove (t : Tree) (p : Path) : Except Error Tree :=
  match p.segments.getLast? with
  | none => .ok .empty
  | some name =>
    match t.resolve p.parent with
    | some (.map m) =>
      if (m.get? name).isSome then t.update p.parent (.map (m.erase name)) else .ok t
    | _ => .ok t

/-- The value of some kind at a path. -/
def fetch (t : Tree) (p : Path) (kind : Kind) : Except Error Value :=
  match t.resolve p with
  | none => .error (.stateMissing p)
  | some v =>
    if v.kind = kind then .ok v
    else .error (.stateType p kind.typeName v.kind.typeName)

/-- The element of some type at a path. -/
def load (α : Type) [Storable α] (t : Tree) (p : Path) : Except Error α :=
  match t.resolve p with
  | none => .error (.stateMissing p)
  | some v =>
    match Storable.load? v with
    | some a => .ok a
    | none => .error (.stateType p (Storable.kind α).typeName v.kind.typeName)

end Tree

end TerminalUI
