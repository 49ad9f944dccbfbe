import Mathlib.Data.List.Basic
import Mathlib.Data.List.TakeWhile
import TerminalUI.Demo.Wrapper
import TerminalUI.Proofs.State.Contents
import TerminalUI.Proofs.Text.OneLine

/-!
# The outline of a state

The wrapper lists the state of the component inside it: the listing of a map is text, which is cut
into lines again and indented below the name of the map. `Tree.outline` has the entries of a tree at
every depth, each with the names that lead to it, and no text at all.

* `Entries.describe_eq` : the listing has the lines of the outline, if each of them is one line;
* `Entries.mem_outline_iff`, `Entries.outline_sorted` : the outline has each entry once, in order;
* `Entries.takeWhile_outline` : what follows a map and is deeper than it is what the map has;
* `Tree.describe_complete` : **the listing of a state is complete.**
-/

namespace TerminalUI

/-! ### Entries at every depth -/

/-- An entry of a tree, at any depth: the names that lead to it, and its value. -/
structure Listed where
  names : List String
  value : Value

namespace Listed

/-- The entry of a map below a name, as one of the map that has the name. -/
def under (name : String) (e : Listed) : Listed := { e with names := name :: e.names }

/-- An entry of the map that another one is, as one of the tree. -/
def within (e d : Listed) : Listed := { d with names := e.names ++ d.names }

/-- Is the second entry deeper than the first one? -/
def isDeeper (e d : Listed) : Bool := e.names.length < d.names.length

/-- What is listed after the name: nothing but a mark for a map. -/
def shown : Value → String
  | .map _ => ":"
  | v => " = " ++ v.listing

/-- The line of the entry: two spaces for each map around it, its name, and what it is. -/
def line (e : Listed) : String :=
  .ofList (List.replicate (2 * (e.names.length - 1)) ' ') ++ e.names.getLast?.getD "" ++
    shown e.value

/-- The name is on one line, and so is a leaf. -/
def isOneLine (e : Listed) : Bool :=
  TerminalUI.isOneLine (e.names.getLast?.getD "") && TerminalUI.isOneLine (shown e.value)

variable {e : Listed}

theorem line_under (h : e.names ≠ []) (name : String) : (e.under name).line = "  " ++ e.line := by
  obtain ⟨names, v⟩ := e
  obtain ⟨first, rest, rfl⟩ := List.exists_cons_of_ne_nil h
  have hindent : String.ofList (List.replicate (2 * (rest.length + 1)) ' ') =
      "  " ++ String.ofList (List.replicate (2 * rest.length) ' ') := by
    rw [Nat.mul_succ, Nat.add_comm, List.replicate_add, String.ofList_append]
    rfl
  simp only [line, under, List.length_cons, Nat.add_sub_cancel, List.getLast?_cons_cons, hindent,
    String.append_assoc]

theorem line_ne_empty (e : Listed) : e.line ≠ "" := by
  intro h
  have hshown : shown e.value = "" := by
    rw [line, ← String.toList_inj] at h
    simp only [String.toList_append, String.toList_empty, List.append_eq_nil_iff] at h
    exact String.toList_inj.1 h.2
  have hchars := congrArg String.toList hshown
  cases hvalue : e.value <;> simp [hvalue, shown] at hchars

theorem isOneLine_line (h : e.isOneLine = true) : TerminalUI.isOneLine e.line = true := by
  rw [isOneLine, Bool.and_eq_true] at h
  have hindent : TerminalUI.isOneLine
      (.ofList (List.replicate (2 * (e.names.length - 1)) ' ')) = true := by
    rw [TerminalUI.isOneLine, String.toList_ofList, List.all_eq_true]
    intro c hc
    rw [List.eq_of_mem_replicate hc]
    rfl
  exact isOneLine_append.2 ⟨isOneLine_append.2 ⟨hindent, h.1⟩, h.2⟩

theorem isOneLine_under (h : e.names ≠ []) (name : String) :
    (e.under name).isOneLine = e.isOneLine := by
  obtain ⟨names, v⟩ := e
  obtain ⟨first, rest, rfl⟩ := List.exists_cons_of_ne_nil h
  rw [isOneLine, isOneLine, under, List.getLast?_cons_cons]

end Listed

mutual

/-- The entries below a name and the one with the name itself. -/
def Value.outlineUnder (name : String) : Value → List Listed
  | .map t => ⟨[name], .map t⟩ :: (Tree.outline t).map (Listed.under name)
  | v => [⟨[name], v⟩]

/-- The entries of a tree at every depth, those of a map right after it, without kept components
and what is below them. -/
def Tree.outline : Tree → List Listed
  | .ofEntries es => es.outline

/-- The entries at every depth of some entries. -/
def Entries.outline {bound : Option String} : Entries bound → List Listed
  | .nil => []
  | .cons name _ v rest =>
    (if name = componentName then [] else v.outlineUnder name) ++ rest.outline

end

theorem Tree.outline_eq (t : Tree) : t.outline = t.entries.outline := by cases t; rfl

theorem Tree.describeEntries_eq (t : Tree) : t.describeEntries = t.entries.describe := by
  cases t
  rw [describeEntries, entries]

namespace Entries

variable {bound : Option String} {e : Listed}

/-- Entries by what is listed of them: kept components, leaves and maps. -/
theorem listed_induction {P : {bound : Option String} → Entries bound → Prop}
    (nil : ∀ {bound}, P (.nil : Entries bound))
    (kept : ∀ {bound} (h : Follows bound componentName) v rest, P rest →
      P (.cons componentName h v rest))
    (leaf : ∀ {bound} name (h : Follows bound name) v rest, name ≠ componentName →
      v.map? = none → P rest → P (.cons name h v rest))
    (map : ∀ {bound} name (h : Follows bound name) t rest, name ≠ componentName →
      P (Tree.entries t) → P rest → P (.cons name h (.map t) rest))
    {bound : Option String} (es : Entries bound) : P es := by
  cases es with
  | nil => exact nil
  | cons name h v rest =>
    have hrest := listed_induction nil kept leaf map rest
    by_cases hname : name = componentName
    · subst hname
      exact kept h v rest hrest
    · cases v with
      | map t =>
        cases t with
        | ofEntries es =>
          exact map name h (.ofEntries es) rest hname (listed_induction nil kept leaf map es) hrest
      | _ => exact leaf name h _ rest hname rfl hrest

/-! ### The equations of an outline -/

variable {name : String} {v : Value} {rest : Entries (some name)} {before after : List Listed}
  {follows : Follows bound name}

theorem outline_kept (h : Follows bound componentName) (v : Value)
    (rest : Entries (some componentName)) :
    (cons componentName h v rest).outline = rest.outline := by
  rw [outline, if_pos rfl, List.nil_append]

theorem outline_leaf (hname : name ≠ componentName) (hv : v.map? = none) :
    (cons name follows v rest).outline = ⟨[name], v⟩ :: rest.outline := by
  have hunder : v.outlineUnder name = [⟨[name], v⟩] := by
    cases v with
    | map t => cases hv
    | _ => rfl
  rw [outline, if_neg hname, hunder, List.singleton_append]

theorem outline_map (hname : name ≠ componentName) (sub : Tree) :
    (cons name follows (.map sub) rest).outline =
      ⟨[name], .map sub⟩ :: (sub.entries.outline.map (.under name) ++ rest.outline) := by
  rw [outline, if_neg hname, Value.outlineUnder, sub.outline_eq, List.cons_append]

theorem names_ne_nil {es : Entries bound} (he : e ∈ es.outline) : e.names ≠ [] := by
  induction es using listed_induction with
  | nil => cases he
  | kept h v rest ih =>
    rw [outline_kept] at he
    exact ih he
  | leaf name h v rest hname hv ih =>
    rw [outline_leaf hname hv, List.mem_cons] at he
    rcases he with rfl | he
    · exact List.cons_ne_nil _ _
    · exact ih he
  | map name h sub rest hname _ ih =>
    rw [outline_map hname, List.mem_cons, List.mem_append, List.mem_map] at he
    rcases he with rfl | ⟨d, -, rfl⟩ | he
    · exact List.cons_ne_nil _ _
    · exact List.cons_ne_nil _ _
    · exact ih he

/-- All that is listed is on one line. -/
def OneLined (es : Entries bound) : Prop := ∀ e ∈ es.outline, e.isOneLine = true

theorem OneLined.lines_eq {es : Entries bound} (h : es.OneLined) :
    lines ("\n".intercalate (es.outline.map Listed.line)) = es.outline.map Listed.line := by
  refine lines_intercalate fun l hl => ?_
  obtain ⟨e, he, rfl⟩ := List.mem_map.1 hl
  exact ⟨e.line_ne_empty, Listed.isOneLine_line (h e he)⟩

/-- **The listing has the lines of the outline.** -/
theorem describe_eq {es : Entries bound} (h : es.OneLined) :
    es.describe = es.outline.map Listed.line := by
  induction es using listed_induction with
  | nil => rw [describe, outline, List.map_nil]
  | kept hk v rest ih =>
    rw [OneLined, outline_kept] at h
    rw [describe, if_pos rfl, outline_kept, List.nil_append]
    exact ih h
  | leaf name hk v rest hname hv ih =>
    rw [OneLined, outline_leaf hname hv, List.forall_mem_cons] at h
    have hunder : v.describeUnder name = [Listed.line ⟨[name], v⟩] := by
      cases v with
      | map t => cases hv
      | _ => simp [Value.describeUnder, Listed.line, Listed.shown, String.append_assoc]
    rw [describe, if_neg hname, outline_leaf hname hv, hunder, ih h.2]
    rfl
  | map name hk sub rest hname ihsub ih =>
    rw [OneLined, outline_map hname, List.forall_mem_cons, List.forall_mem_append,
      List.forall_mem_map] at h
    have hsub : sub.entries.OneLined := fun e he => by
      rw [← Listed.isOneLine_under (names_ne_nil he) name]
      exact h.2.1 e he
    -- the text of the map is cut into the lines that it was joined from
    have hlines : lines sub.describe = sub.entries.outline.map Listed.line := by
      rw [Tree.describe, sub.describeEntries_eq, ihsub hsub]
      exact hsub.lines_eq
    have hindent : (sub.entries.outline.map Listed.line).map ("  " ++ ·) =
        (sub.entries.outline.map (.under name)).map Listed.line := by
      rw [List.map_map, List.map_map]
      exact List.map_congr_left fun e he => (Listed.line_under (names_ne_nil he) name).symm
    have hline : Listed.line ⟨[name], .map sub⟩ = name ++ ":" := by
      simp [Listed.line, Listed.shown]
    rw [describe, if_neg hname, Value.describeUnder, hlines, hindent, ih h.2.2,
      outline_map hname, List.map_cons, List.map_append, hline, List.cons_append]

/-! ### Each entry once, in order -/

/-- The value that names lead to, starting at some entries. -/
def resolveFrom (es : Entries bound) : List String → Option Value
  | [] => none
  | key :: names => (es.get? key).bind (Tree.resolveFrom · names)

theorem resolveFrom_nil (names : List String) : (nil : Entries bound).resolveFrom names = none := by
  cases names <;> rfl

theorem resolveFrom_cons (key : String) (names : List String) :
    (cons name follows v rest).resolveFrom (key :: names) =
      if key = name then Tree.resolveFrom v names else rest.resolveFrom (key :: names) := by
  rw [resolveFrom, resolveFrom, get?]
  split <;> rfl

/-- The names after the first one are not led to by its name. -/
theorem resolveFrom_self (names : List String) : rest.resolveFrom (name :: names) = none := by
  rw [resolveFrom, get?_self, Option.bind_none]

theorem resolveFrom_entries (t : Tree) {names : List String} (h : names ≠ []) :
    t.entries.resolveFrom names = Tree.resolveFrom (.map t) names := by
  obtain ⟨key, names, rfl⟩ := List.exists_cons_of_ne_nil h
  rw [Tree.resolveFrom_cons]
  rfl

theorem resolveFrom_eq_some_iff_of_leaf (hv : v.map? = none) {names : List String} {w : Value} :
    Tree.resolveFrom v names = some w ↔ names = [] ∧ v = w := by
  cases names with
  | nil => simp [Tree.resolveFrom]
  | cons key names =>
    cases v with
    | map t => cases hv
    | _ => simp [Tree.resolveFrom]

theorem mem_map_under_iff {entries : List Listed} {key : String} {names : List String}
    {w : Value} :
    ⟨key :: names, w⟩ ∈ entries.map (Listed.under name) ↔ key = name ∧ ⟨names, w⟩ ∈ entries := by
  rw [List.mem_map]
  constructor
  · rintro ⟨d, hd, heq⟩
    cases heq
    exact ⟨rfl, hd⟩
  · rintro ⟨rfl, hd⟩
    exact ⟨_, hd, rfl⟩

theorem mem_outline_cons_iff {es : Entries bound} {key : String} {names : List String}
    {w : Value} :
    ⟨key :: names, w⟩ ∈ es.outline ↔
      componentName.text ∉ key :: names ∧ es.resolveFrom (key :: names) = some w := by
  induction es using listed_induction generalizing key names w with
  | nil => simp [outline, resolveFrom_nil]
  | kept h v rest ih =>
    rw [outline_kept, ih, resolveFrom_cons]
    by_cases hkey : key = componentName
    · simp [hkey]
    · rw [if_neg hkey]
  | leaf name h v rest hname hv ih =>
    rw [outline_leaf hname hv, List.mem_cons, ih, resolveFrom_cons]
    by_cases hkey : key = name
    · subst hkey
      rw [if_pos rfl, resolveFrom_self, resolveFrom_eq_some_iff_of_leaf hv]
      constructor
      · rintro (heq | ⟨-, heq⟩)
        · cases heq
          exact ⟨by simpa using Ne.symm hname, rfl, rfl⟩
        · cases heq
      · rintro ⟨-, rfl, rfl⟩
        exact .inl rfl
    · simp [hkey]
  | map name h sub rest hname ihsub ih =>
    rw [outline_map hname, List.mem_cons, List.mem_append, mem_map_under_iff, ih,
      resolveFrom_cons]
    by_cases hkey : key = name
    · subst hkey
      rw [if_pos rfl, resolveFrom_self]
      cases names with
      | nil =>
        have hnil : (⟨[], w⟩ : Listed) ∉ sub.entries.outline := fun hmem => names_ne_nil hmem rfl
        simp [hnil, Tree.resolveFrom, Ne.symm hname, eq_comm]
      | cons next names =>
        simp [ihsub, Ne.symm hname, resolveFrom_entries]
    · simp [hkey]

/-- **The outline has exactly the entries that are outside of kept components.** -/
theorem mem_outline_iff {es : Entries bound} :
    e ∈ es.outline ↔ componentName.text ∉ e.names ∧ es.resolveFrom e.names = some e.value := by
  obtain ⟨names, w⟩ := e
  cases names with
  | nil => exact iff_of_false (fun hmem => names_ne_nil hmem rfl) fun h => nomatch h.2
  | cons key names => exact mem_outline_cons_iff

/-- What is listed after the first entry of a map and outside of it comes after it. -/
theorem lt_of_mem_outline (he : e ∈ rest.outline) (names : List String) :
    name :: names < e.names := by
  have hresolve := (mem_outline_iff.1 he).2
  obtain ⟨key, names', hnames⟩ := List.exists_cons_of_ne_nil (names_ne_nil he)
  rw [hnames, resolveFrom] at hresolve
  obtain ⟨w, hw, -⟩ := Option.bind_eq_some_iff.1 hresolve
  rw [hnames, List.cons_lt_cons_iff]
  exact .inl (follows_of_get? hw name rfl)

/-- **The outline is in order**: a map, all that it has, and then what comes after its name. -/
theorem outline_sorted (es : Entries bound) : es.outline.Pairwise (·.names < ·.names) := by
  induction es using listed_induction with
  | nil => exact .nil
  | kept h v rest ih =>
    rw [outline_kept]
    exact ih
  | leaf name h v rest hname hv ih =>
    rw [outline_leaf hname hv]
    exact .cons (fun e he => lt_of_mem_outline he []) ih
  | map name h sub rest hname ihsub ih =>
    rw [outline_map hname]
    refine .cons (fun e he => ?_) (List.pairwise_append.2 ⟨?_, ih, fun d hd e he => ?_⟩)
    · rcases List.mem_append.1 he with he | he
      · obtain ⟨d, hd, rfl⟩ := List.mem_map.1 he
        obtain ⟨key, names, hnames⟩ := List.exists_cons_of_ne_nil (names_ne_nil hd)
        rw [Listed.under, hnames, List.cons_lt_cons_iff]
        exact .inr ⟨rfl, List.nil_lt_cons key names⟩
      · exact lt_of_mem_outline he []
    · refine List.pairwise_map.2 (ihsub.imp fun hlt => ?_)
      exact List.cons_lt_cons_iff.2 (.inr ⟨rfl, hlt⟩)
    · obtain ⟨d, -, rfl⟩ := List.mem_map.1 hd
      exact lt_of_mem_outline he d.names

/-! ### Maps and what they have -/

theorem takeWhile_outline_of_ne_nil (he : e.names ≠ []) (es : Entries bound) :
    es.outline.takeWhile e.isDeeper = [] := by
  have hdeeper (name : String) (v : Value) : e.isDeeper ⟨[name], v⟩ = false := by
    simpa [Listed.isDeeper, List.length_pos_iff] using he
  induction es using listed_induction with
  | nil => rfl
  | kept h v rest ih => rw [outline_kept, ih]
  | leaf name h v rest hname hv _ =>
    rw [outline_leaf hname hv, List.takeWhile_cons_of_neg (by simp [hdeeper])]
  | map name h sub rest hname _ _ =>
    rw [outline_map hname, List.takeWhile_cons_of_neg (by simp [hdeeper])]

theorem takeWhile_append_outline (he : e.names ≠ []) (entries : List Listed) (es : Entries bound) :
    (entries ++ es.outline).takeWhile e.isDeeper = entries.takeWhile e.isDeeper := by
  rw [List.takeWhile_append, takeWhile_outline_of_ne_nil he, List.append_nil]
  split
  · rename_i hlength
    exact ((List.takeWhile_prefix _).eq_of_length hlength).symm
  · rfl

/-- **What follows an entry and is deeper than it is what it has**: nothing for a leaf. -/
theorem takeWhile_outline {es : Entries bound} (h : es.outline = before ++ e :: after) :
    after.takeWhile e.isDeeper = (e.value.map?.elim [] Tree.outline).map e.within := by
  induction es using listed_induction generalizing before e after with
  | nil => simp [outline] at h
  | kept hk v rest ih =>
    rw [outline_kept] at h
    exact ih h
  | leaf name hk v rest hname hv ih =>
    rw [outline_leaf hname hv, List.cons_eq_append_iff] at h
    rcases h with ⟨rfl, heq⟩ | ⟨before', rfl, hrest⟩
    · cases heq
      rw [takeWhile_outline_of_ne_nil (List.cons_ne_nil _ _), hv]
      rfl
    · exact ih hrest
  | map name hk sub rest hname ihsub ih =>
    rw [outline_map hname, List.cons_eq_append_iff] at h
    rcases h with ⟨rfl, heq⟩ | ⟨before', rfl, hsplit⟩
    · -- the map itself
      cases heq
      rw [takeWhile_append_outline (List.cons_ne_nil _ _), ← sub.outline_eq]
      refine List.takeWhile_eq_self_iff.2 fun d hd => ?_
      obtain ⟨d', hd', rfl⟩ := List.mem_map.1 hd
      rw [sub.outline_eq] at hd'
      simpa [Listed.isDeeper, Listed.under, List.length_pos_iff] using names_ne_nil hd'
    · rcases List.append_eq_append_iff.1 hsplit with ⟨between, -, hrest⟩ | ⟨inside, hinside, heq⟩
      · exact ih hrest
      · cases inside with
        | nil =>
          have hrest : rest.outline = [] ++ e :: after := heq.symm
          exact ih hrest
        | cons _ inside =>
          -- an entry of the map
          rw [List.cons_append, List.cons.injEq] at heq
          obtain ⟨rfl, rfl⟩ := heq
          obtain ⟨front, tail, hsub, -, htail⟩ := List.map_eq_append_iff.1 hinside
          obtain ⟨d, behind, rfl, rfl, rfl⟩ := List.map_eq_cons_iff.1 htail
          have hunder : (d.under name).isDeeper ∘ Listed.under name = d.isDeeper := by
            funext d'
            simp [Listed.isDeeper, Listed.under]
          have hne : (d.under name).names ≠ [] := List.cons_ne_nil _ _
          rw [takeWhile_append_outline hne, List.takeWhile_map, hunder, ihsub hsub, List.map_map]
          rfl

end Entries

namespace Tree

variable {t : Tree}

/-- All that is listed is on one line. -/
def OneLined (t : Tree) : Prop := ∀ e ∈ t.outline, e.isOneLine = true

theorem mem_outline_iff {e : Listed} :
    e ∈ t.outline ↔ e.names ≠ [] ∧ componentName.text ∉ e.names ∧
      resolveFrom (.map t) e.names = some e.value := by
  rw [outline_eq]
  constructor
  · intro he
    have hne := Entries.names_ne_nil he
    rw [← Entries.resolveFrom_entries t hne]
    exact ⟨hne, Entries.mem_outline_iff.1 he⟩
  · rintro ⟨hne, hcomponent, hresolve⟩
    rw [← Entries.resolveFrom_entries t hne] at hresolve
    exact Entries.mem_outline_iff.2 ⟨hcomponent, hresolve⟩

/-- **The listing of a state is complete.** If all that is listed is on one line, the lines of the
listing are those of the outline. The outline has exactly the entries that are outside of kept
components, each of them once, depth first by their names. An entry is followed by what it has, if it
is a map, and then by something that is not deeper than it is. -/
theorem describe_complete (h : t.OneLined) :
    t.describe = "\n".intercalate (t.outline.map Listed.line) ∧
    lines t.describe = t.outline.map Listed.line ∧
    t.outline.Pairwise (·.names < ·.names) ∧
    (∀ e, e ∈ t.outline ↔
      e.names ≠ [] ∧ componentName.text ∉ e.names ∧ resolveFrom (.map t) e.names = some e.value) ∧
    ∀ before e after, t.outline = before ++ e :: after →
      after.takeWhile e.isDeeper = (e.value.map?.elim [] outline).map e.within := by
  have hentries : t.entries.OneLined := by rwa [OneLined, outline_eq] at h
  have hdescribe : t.describe = "\n".intercalate (t.outline.map Listed.line) := by
    rw [describe, describeEntries_eq, Entries.describe_eq hentries, outline_eq]
  refine ⟨hdescribe, ?_, ?_, fun e => mem_outline_iff, fun before e after hsplit => ?_⟩
  · rw [hdescribe, outline_eq]
    exact hentries.lines_eq
  · rw [outline_eq]
    exact t.entries.outline_sorted
  · rw [outline_eq] at hsplit
    exact Entries.takeWhile_outline hsplit

/-- Maps inside each other, one of them empty, and a kept component that is not on one line. -/
def nested : Tree :=
  .ofList [("a", .map .empty), ("b", .map (.ofList [(componentName, .items (some ⟨[], "\n"⟩)),
    ("c", .map (.ofList [("d", .bool true)])), ("e", .bool false)])), ("f", .bool true)]

theorem describe_complete_nested : nested.OneLined ∧
    lines nested.describe = ["a:", "b:", "  c:", "    d = true", "  e = false", "f = true"] ∧
    nested.outline.Pairwise (·.names < ·.names) := by
  have h : nested.OneLined := by
    intro e he
    revert e
    decide
  obtain ⟨-, hlines, hsorted, -⟩ := describe_complete h
  refine ⟨h, hlines.trans ?_, hsorted⟩
  decide

end Tree

end TerminalUI
