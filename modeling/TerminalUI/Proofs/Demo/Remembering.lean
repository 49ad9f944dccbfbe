import TerminalUI.Proofs.Demo.Walking

/-!
# The directories of a navigator

A navigator that starts with the empty path in a hierarchy is always at a node of it, and has a
valid selection there if that is a directory (`Navigator.Place`). What was selected in a directory
stays selected while the walk is elsewhere, and going down and up again changes nothing that was
selected (`Navigator.Follows`).
-/

namespace TerminalUI

namespace Navigator

variable {keymap : CodeArea.Keymap} {top : Node} {t : Tree} {w w' : Embedded}
  {path path' : List String} {event : Event} {action : Action}

/-- The tree holds a hierarchy, which is an empty directory if none is there, and the empty path,
and no directory was shown yet. -/
structure Fresh (top : Node) (t : Tree) : Prop where
  resolve_data : t.resolve (Path.root.child dataName) = some (.node top) ∨
    t.resolve (Path.root.child dataName) = none ∧ top = .directory .empty
  resolve_path : t.resolve (Path.root.child pathName) = some (.strings []) ∨
    t.resolve (Path.root.child pathName) = none
  panels : ∀ p, t.resolve (Path.root.child (panelName p)) = none

/-- The application is at a path in the hierarchy that leads to a node. If that is a directory,
there is a selection for it: the index of one of its nodes, or 0 if there are none. -/
structure Place (top : Node) (w : Embedded) (path : List String) : Prop where
  resolve_data : w.tree.resolve (Path.root.child dataName) = some (.node top)
  resolve_path : w.tree.resolve (Path.root.child pathName) = some (.strings path)
  access : (top.access? path).isSome
  selected : ∀ {children}, top.access? path = some (.directory children) →
    ∃ i, Stores .root w.tree path i ∧
      (i < children.toList.length ∨ children.toList = [] ∧ i = 0)

/-- What an event makes of an application at a path. It is at a place again, and has the same
selections for all directories but the current one. Right goes down to the selected node, and if it
went down, Left goes back, and the selections are those from before. -/
structure Follows (top : Node) (w : Embedded) (path : List String) (event : Event) (w' : Embedded)
    (path' : List String) : Prop where
  place : Place top w' path'
  others : ∀ p i, p ≠ path → Stores .root w.tree p i → Stores .root w'.tree p i
  down : event = .key (.bare .right) → ∀ {children i name},
    top.access? path = some (.directory children) → Stores .root w.tree path i →
    (children.toList[i]?).map Prod.fst = some name → path' = path ++ [name]
  back : event = .key (.bare .right) → path' ≠ path →
    ∃ w'', w'.dispatch (.key (.bare .left)) = .ok (.consumed, w'') ∧ Place top w'' path ∧
      Keeps .root w.tree w''.tree

theorem Fresh.offers (h : Fresh top t) : Offers .root top t [] where
  exists_map := ⟨t, rfl⟩
  resolve_data := h.resolve_data
  resolve_path := h.resolve_path.imp_right fun hpath => ⟨hpath, rfl⟩
  access := rfl
  panels p := .missing (h.panels p)

theorem Live.place (h : Live keymap top w path) : Place top w path where
  resolve_data := h.ready.resolve_data
  resolve_path := h.ready.resolve_path
  access := h.ready.access
  selected {children} haccess := by
    obtain ⟨view, column, -, hcolumn⟩ := h.scene
    cases hcolumn with
    | other hother => exact absurd haccess (hother children)
    | @directory _ _ i _ hstores =>
      refine ⟨i, hstores, ?_⟩
      cases h.ready.panels path with
      | missing hmissing =>
        rw [Stores, ListBox.selected, Tree.resolve_child_of_resolve_eq_none hmissing] at hstores
        cases hstores
      | made haccess' hvalid hlist =>
        obtain rfl := hstores.eq hlist.ready.selected
        obtain rfl : _ = children := by simpa using haccess'.symm.trans haccess
        rw [← List.length_eq_zero_iff]
        omega

/-- Left goes up from a node below another one. -/
theorem Live.exists_dispatch_left {name : String} (h : Live keymap top w (path ++ [name])) :
    ∃ w', w.dispatch (.key (.bare .left)) = .ok (.consumed, w') ∧ Live keymap top w' path ∧
      Keeps .root w.tree w'.tree := by
  obtain ⟨action, w', path', column, hdispatch, hlive, -, hgoes⟩ :=
    h.exists_dispatch (.key (.bare .left))
  cases hgoes with
  | up _ _ hkeeps =>
    rw [List.dropLast_concat] at hlive
    exact ⟨w', hdispatch, hlive, hkeeps⟩
  | stays hleft => simp at hleft
  | down hevent => cases hevent

theorem Live.exists_follows (h : Live keymap top w path) (event : Event) :
    ∃ action w' path', w.dispatch event = .ok (action, w') ∧ Live keymap top w' path' ∧
      Follows top w path event w' path' := by
  obtain ⟨action, w', path', column, hdispatch, hlive, hcolumn, hgoes⟩ := h.exists_dispatch event
  refine ⟨action, w', path', hdispatch, hlive, hlive.place, fun p i hne hp => ?_, ?_, ?_⟩
  · cases hgoes with
    | up _ _ hkeeps => exact hkeeps p i hp
    | down _ _ hkeeps => exact hkeeps p i hp
    | stays _ _ hkeeps => exact hkeeps p i hne hp
  · intro hevent children i name haccess hstores hname
    have hselected : column.selected = some name := by
      cases hcolumn with
      | other hother => exact absurd haccess (hother children)
      | directory haccess' hstores' =>
        obtain rfl : _ = children := by simpa using haccess'.symm.trans haccess
        rw [← hname, hstores.eq hstores']
    cases hgoes with
    | up hleft => rw [hevent] at hleft; cases hleft
    | down _ hname' => rw [hselected, Option.some.injEq] at hname'; rw [hname']
    | stays _ hright => rw [hright hevent] at hselected; cases hselected
  · intro hevent hmoved
    cases hgoes with
    | up hleft => rw [hevent] at hleft; cases hleft
    | down _ _ hkeeps =>
      obtain ⟨w'', hleft, hlive'', hkeeps'⟩ := hlive.exists_dispatch_left
      exact ⟨w'', hleft, hlive''.place, hkeeps.trans hkeeps'⟩
    | stays => exact absurd rfl hmoved

/-- A navigator takes any events, and is at some path then. -/
theorem Live.exists_dispatchAll (h : Live keymap top w path) (events : List Event) :
    ∃ actions w' path', w.dispatchAll events = .ok (actions, w') ∧ Live keymap top w' path' := by
  have hstep {w : Embedded} (hw : ∃ path, Live keymap top w path) (event : Event) :
      ∃ action w', w.dispatch event = .ok (action, w') ∧ ∃ path, Live keymap top w' path := by
    obtain ⟨path, hlive⟩ := hw
    obtain ⟨action, w', path', column, hdispatch, hlive', -⟩ := hlive.exists_dispatch event
    exact ⟨action, w', hdispatch, path', hlive'⟩
  obtain ⟨actions, w', hevents, path', hlive⟩ :=
    Embedded.exists_dispatchAll hstep ⟨path, h⟩ events
  exact ⟨actions, w', path', hevents, hlive⟩

/-- **Walks stay in the hierarchy, and directories are remembered.** Different paths have different
entries at every level. Started with the empty path in a hierarchy, under any keymap, a navigator
deals with any events, and is at a node then, with a valid selection if that is a directory. The
next event leaves the selections of all other directories as they are, and what goes down by Right
comes back by Left with the selections from before. -/
theorem walks_remember (keymap : CodeArea.Keymap) (h : Fresh top t) :
    (∀ (level : Path) (p q : List String),
      level.child (panelName p) = level.child (panelName q) → p = q) ∧
    ∃ w₀, Embedded.start (application keymap) t = .ok w₀ ∧ Place top w₀ [] ∧
      ∀ events, ∃ actions w path, w₀.dispatchAll events = .ok (actions, w) ∧ Place top w path ∧
        ∀ event, ∃ action w' path', w.dispatch event = .ok (action, w') ∧
          Follows top w path event w' path' := by
  refine ⟨fun level p q hchild => ?_, ?_⟩
  · have hprefix : (level.child (panelName p)).segments <+: (level.child (panelName q)).segments :=
      hchild ▸ List.prefix_refl _
    exact panelName_injective (Path.eq_of_child_prefix_child hprefix)
  · obtain ⟨w₀, hstart, hlive₀⟩ := h.offers.exists_start keymap
    refine ⟨w₀, hstart, hlive₀.place, fun events => ?_⟩
    obtain ⟨actions, w, path, hevents, hlive⟩ := hlive₀.exists_dispatchAll events
    refine ⟨actions, w, path, hevents, hlive.place, fun event => ?_⟩
    obtain ⟨action, w', path', hdispatch, -, hfollows⟩ := hlive.exists_follows event
    exact ⟨action, w', path', hdispatch, hfollows⟩

/-- A walk can start where nothing but a hierarchy is. -/
theorem fresh_of_data (top : Node) : Fresh top (Tree.empty.insert dataName (.node top)) where
  resolve_data := .inl rfl
  resolve_path := .inr rfl
  panels p := by
    have hne := Name.text_ne (panelName_ne (show dataName.text.toList.head? ≠ _ by decide) p)
    rw [Tree.resolve_child (show Tree.resolve _ .root = _ from rfl), Tree.get?_insert, if_neg hne]
    rfl

theorem walks_remember_sample :
    (∀ (level : Path) (p q : List String),
      level.child (panelName p) = level.child (panelName q) → p = q) ∧
    ∃ w₀, Embedded.start (application .movement) (Tree.empty.insert dataName (.node sample)) =
        .ok w₀ ∧ Place sample w₀ [] ∧
      ∀ events, ∃ actions w path, w₀.dispatchAll events = .ok (actions, w) ∧ Place sample w path ∧
        ∀ event, ∃ action w' path', w.dispatch event = .ok (action, w') ∧
          Follows sample w path event w' path' :=
  walks_remember .movement (fresh_of_data sample)

end Navigator

end TerminalUI
