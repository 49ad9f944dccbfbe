import TerminalUI.Text.Listing
import TerminalUI.Text.Pieces

/-!
# Paths

A path leads from the root of the state tree to one of its entries, through the names of the maps
on the way. Names on a path are never empty: constructors drop empty segments, so a leading, doubled
or trailing slash in a written path means nothing.
-/

namespace TerminalUI

/-- The name of an entry on a path, which is not empty. -/
@[ext]
structure Name where
  text : String
  ne_empty : text ≠ ""
  deriving DecidableEq, Repr

namespace Name

instance : Coe Name String := ⟨text⟩

theorem text_ne {name other : Name} (h : name ≠ other) : name.text ≠ other.text := mt Name.ext h

end Name

/-- The names that lead to an entry, none of them empty. -/
@[ext]
structure Path where
  /-- The names, outermost first. -/
  segments : List String
  ne_empty : ∀ name ∈ segments, name ≠ ""
  deriving DecidableEq, Repr

namespace Path

/-- The path to the root. -/
def root : Path := ⟨[], by simp⟩

instance : Inhabited Path := ⟨root⟩

/-- A path from its segments; empty ones are dropped. -/
def ofList (names : List String) : Path where
  segments := names.filter (· ≠ "")
  ne_empty := by simp

theorem ofList_segments (p : Path) : ofList p.segments = p :=
  Path.ext (List.filter_eq_self.mpr fun name h => by simpa using p.ne_empty name h)

/-- Reads a path: segments with slashes between them. -/
def ofString (s : String) : Path :=
  ofList (pieces '/' s)

/-- A path followed by another one. -/
instance : Append Path where
  append p q := {
    segments := p.segments ++ q.segments
    ne_empty := fun name h => (List.mem_append.mp h).elim (p.ne_empty name) (q.ne_empty name) }

theorem segments_append (p q : Path) : (p ++ q).segments = p.segments ++ q.segments := rfl

theorem append_root (p : Path) : p ++ root = p := Path.ext (List.append_nil p.segments)

theorem append_assoc (p q r : Path) : p ++ q ++ r = p ++ (q ++ r) :=
  Path.ext (List.append_assoc p.segments q.segments r.segments)

theorem append_ne_root (p : Path) {q : Path} (h : q ≠ root) : p ++ q ≠ root := fun heq =>
  h (Path.ext (List.append_eq_nil_iff.mp (congrArg segments heq)).2)

/-- The path with more segments at its end. -/
def join (p : Path) (names : List String) : Path := p ++ ofList names

/-- The path with one more segment. -/
def child (p : Path) (name : String) : Path := p.join [name]

theorem child_append (p : Path) (name : String) (q : Path) :
    p.child name ++ q = p ++ (ofList [name] ++ q) :=
  append_assoc p (ofList [name]) q

theorem segments_ofList_singleton (name : Name) : (ofList [name.text]).segments = [name.text] := by
  simp [ofList, name.ne_empty]

theorem join_cons (p : Path) (name : String) (names : List String) :
    p.join (name :: names) = (p.child name).join names :=
  Path.ext (by simp [child, join, segments_append, ofList, ← List.filter_append])

theorem ofList_singleton_ne_root (name : Name) : ofList [name.text] ≠ root := by
  simp [ofList, root, name.ne_empty]

theorem segments_child (p : Path) (name : Name) :
    (p.child name).segments = p.segments ++ [name.text] := by
  rw [child, join, segments_append, segments_ofList_singleton]

theorem child_ne_root (p : Path) (name : Name) : p.child name ≠ root :=
  append_ne_root p (ofList_singleton_ne_root name)

/-- The path without its last segment. -/
def parent (p : Path) : Path where
  segments := p.segments.dropLast
  ne_empty := fun name h => p.ne_empty name ((List.dropLast_subset _) h)

theorem segments_parent (p : Path) : p.parent.segments = p.segments.dropLast := rfl

theorem parent_child (p : Path) (name : Name) : (p.child name).parent = p :=
  Path.ext (by rw [segments_parent, segments_child, List.dropLast_concat])

theorem eq_of_child_eq {p q : Path} {name other : Name} (h : p.child name = q.child other) :
    p = q ∧ name = other := by
  have hsegments := congrArg segments h
  rw [segments_child, segments_child] at hsegments
  obtain ⟨hlevel, hname⟩ := List.append_inj' hsegments rfl
  exact ⟨Path.ext hlevel, Name.ext (List.cons.inj hname).1⟩

/-- The last segment. -/
def last? (p : Path) : Option String := p.segments.getLast?

/-- Is this the path to the root? -/
def isRoot (p : Path) : Bool := p.segments.isEmpty

/-- Number of segments. -/
def length (p : Path) : Nat := p.segments.length

/-- The written form, with a slash in front of the segments and between them. -/
def toString (p : Path) : String := "/" ++ "/".intercalate p.segments

instance : ToString Path := ⟨toString⟩

/-- The path as a listing of its structure. -/
def describe (p : Path) : String :=
  Listing.record "StatePath" [("path", Listing.texts p.segments)]

end Path

end TerminalUI
