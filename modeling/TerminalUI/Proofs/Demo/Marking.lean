import TerminalUI.Proofs.Demo.Checklist

/-!
# The entries of a to-do list

The entries of a to-do list are kept twice, and the selection among them is that of the list box.
However the list got where it is, the items are the lines of the entries (`TodoList.lineOf`), and the
selection is one of them (`TodoList.Contents.Intact`). An event adds what the field holds, marks the entry that
is shown as selected, or does nothing to the entries (`TodoList.Changes`).
-/

namespace TerminalUI

namespace TodoList

/-- What a to-do list keeps: the entries, the items and the selection of the list box, the buffer of
the field, and the focus. -/
structure Contents where
  todos : List Todo
  items : Option Items
  selected : Nat
  entry : CodeBuffer
  focus : Nat

/-- The tree has the contents. -/
structure Has (w : Embedded) (x : Contents) : Prop where
  todos : w.tree.resolve (Path.root.child todosName) = some (.todos x.todos)
  items : w.tree.resolve (ListBox.items (Path.root.child listName)).path = some (.items x.items)
  selected : w.tree.resolve (ListBox.selected (Path.root.child listName)).path =
    some (.index x.selected)
  entry : w.tree.resolve (CodeArea.buffer (Path.root.child newItemName)).path =
    some (.buffer x.entry)
  focus : w.tree.resolve (Path.root.child focusName) = some (.index x.focus)

/-- The line of an entry: its text behind a mark, which is an X if the entry is done. -/
def lineOf : Todo → String
  | ⟨text, true⟩ => "[X] " ++ text
  | ⟨text, false⟩ => "[ ] " ++ text

namespace Contents

/-- The items show the lines of the entries in order, the selection is one of them if there are
any, and the focus is on a part. -/
structure Intact (x : Contents) : Prop where
  shown : x.items.elim [] Items.shown = x.todos.map fun t => .plain (lineOf t)
  selected : x.selected < max 1 x.todos.length
  focus : x.focus ≤ 1

/-- The list box shows the line of the entry as the selected one, between the lines of those before
and after it. -/
def Displays (x : Contents) (before : List Todo) (t : Todo) (after : List Todo) : Prop :=
  x.todos = before ++ t :: after ∧ before.length = x.selected ∧ ∀ width height,
    (ListBox.view x.items x.selected).render width height =
      (ListBox.frameOf width (before.map fun t => .plain (lineOf t)) (.plain (lineOf t))
        (after.map fun t => .plain (lineOf t))).trim 0 height

end Contents

/-- What becomes of the entries: they stay, the content of the field is added and the field is
cleared, or the mark of the entry that is shown as selected is flipped. -/
inductive Changes (x x' : Contents) : Prop where
  | kept (htodos : x'.todos = x.todos)
  | added (htodos : x'.todos = x.todos ++ [⟨x.entry.content, false⟩]) (hentry : x'.entry = {})
  | flipped {before after : List Todo} {t : Todo} (hdisplays : x.Displays before t after)
    (htodos : x'.todos = before ++ { t with done := !t.done } :: after)

variable {keymap : CodeArea.Keymap} {s s' : State} {w : Embedded} {event : Event}
  {action : Action} {x : Contents} {f : List Todo → List Todo}

/-! ### The contents of a state -/

/-- The contents of a state. -/
def State.contents (s : State) : Contents where
  todos := s.todos
  items := s.items
  selected := s.selected
  entry := s.entry.buffer
  focus := s.focus.index

theorem Ready.has (h : Ready .root w.tree s) : Has w s.contents :=
  ⟨h.todos, h.list.ready.items, h.list.ready.selected, h.entry.resolve_buffer, h.focus⟩

theorem Part.index_le (part : Part) : part.index ≤ 1 := by cases part <;> decide

/-- Entries are shown by their lines. -/
theorem shown_eq (t : Todo) : shown t = .plain (lineOf t) := by
  obtain ⟨text, done⟩ := t
  cases done with
  | false => rfl
  | true => rfl

namespace Contents

theorem Intact.size_eq (h : x.Intact) : ListBox.size x.items = x.todos.length := by
  have hlength := congrArg List.length h.shown
  rw [List.length_map] at hlength
  rw [← hlength]
  cases x.items <;> rfl

/-- A selected entry is shown as such. -/
theorem Intact.displays {before after : List Todo} {t : Todo} (h : x.Intact)
    (htodos : x.todos = before ++ t :: after) (hlength : before.length = x.selected) :
    x.Displays before t after := by
  refine ⟨htodos, hlength, ?_⟩
  have hshown := h.shown
  have hsize := h.size_eq
  cases hitems : x.items with
  | none =>
    rw [hitems, htodos] at hshown
    simp at hshown
  | some l =>
    rw [hitems, Option.elim_some, htodos, List.map_append, List.map_cons] at hshown
    obtain ⟨front, item, back, hsplit, hfront, hrender⟩ :=
      ListBox.exists_render_view (l := l) (by simp [hshown]) x.selected
    -- both splits are at the selected item
    have hclamp : front.length =
        (before.map fun t => StyledText.plain (lineOf t)).length := by
      rw [hfront, List.length_map, hlength, ListBox.clamp]
      rw [hitems, htodos] at hsize
      have hl : l.size = (before ++ t :: after).length := hsize
      rw [hl, List.length_append, List.length_cons, hlength]
      omega
    obtain ⟨rfl, htail⟩ := List.append_inj (hsplit.symm.trans hshown) hclamp
    obtain ⟨rfl, rfl⟩ := List.cons.inj htail
    exact fun width height => (hrender width height).1

end Contents

/-! ### Steps -/

/-- The entries and the items are changed together, and no entry is taken away. -/
theorem Intact.update (h : s.contents.Intact) (hf : s.todos.length ≤ (f s.todos).length) :
    (s.update f).contents.Intact where
  shown := List.map_congr_left fun t _ => shown_eq t
  selected := by
    have hselected : s.selected < max 1 s.todos.length := h.selected
    change s.selected < max 1 (f s.todos).length
    omega
  focus := h.focus

/-- **A step keeps the items and the entries together.** -/
theorem Step.intact (h : Step keymap s event action s') (hs : s.contents.Intact) :
    s'.contents.Intact := by
  cases h with
  | ignored => exact hs
  | switched => exact ⟨hs.shown, hs.selected, s.focus.other.index_le⟩
  | moved _ hmoves =>
    have hsize : ListBox.size s.items = s.todos.length := hs.size_eq
    exact ⟨hs.shown, hsize ▸ hmoves.lt_max (hsize ▸ hs.selected), hs.focus⟩
  | lowered => exact ⟨hs.shown, hs.selected, Part.entry.index_le⟩
  | toggled => exact Intact.update hs (by simp [toggle])
  | unused => exact hs
  | added =>
    have hadded := Intact.update (f := (· ++ [⟨s.entry.buffer.content, false⟩])) hs (by simp)
    exact ⟨hadded.shown, hadded.selected, hadded.focus⟩
  | edited => exact ⟨hs.shown, hs.selected, hs.focus⟩
  | raised => exact ⟨hs.shown, hs.selected, Part.list.index_le⟩

/-- **What a step makes of the entries.** -/
theorem Step.changes (h : Step keymap s event action s') (hs : s.contents.Intact) :
    Changes s.contents s'.contents := by
  cases h with
  | toggled =>
    by_cases hselected : s.selected < s.todos.length
    · obtain ⟨before, t, after, htodos, hlength, htoggled⟩ :=
        List.exists_of_modify (fun t : Todo => { t with done := !t.done }) hselected
      exact .flipped (hs.displays htodos hlength) htoggled
    · exact .kept (List.modify_eq_self (Nat.le_of_not_lt hselected))
  | added => exact .added rfl rfl
  | _ => exact .kept rfl

theorem intact_initial : (State.contents {}).Intact := ⟨rfl, Nat.zero_lt_one, Nat.le_refl 1⟩

/-- **A to-do list keeps its entries together.** Started on the empty tree under any keymap, it
deals with any events, and has its entries as the items of the list box then, with a selection among
them and the focus on a part. The next event keeps the entries, adds the content of the field as one
that is not done and clears the field, or flips the mark of the one that is shown as selected. -/
theorem entries_intact (keymap : CodeArea.Keymap) :
    ∃ w₀, Embedded.start (application keymap) = .ok w₀ ∧ ∀ events, ∃ actions w x,
      w₀.dispatchAll events = .ok (actions, w) ∧ Has w x ∧ x.Intact ∧
      ∀ event, ∃ action w' x', w.dispatch event = .ok (action, w') ∧ Has w' x' ∧ x'.Intact ∧
        Changes x x' := by
  obtain ⟨w₀, hstart, hlive₀⟩ := (machine keymap).exists_start
  refine ⟨w₀, hstart, fun events => ?_⟩
  obtain ⟨actions, w, s, hevents, hrun, hlive⟩ := hlive₀.exists_dispatchAll events
  have hs : s.contents.Intact := hrun.invariant (fun hs hstep => Step.intact hstep hs)
    intact_initial
  refine ⟨actions, w, s.contents, hevents, Ready.has hlive.holds, hs, fun event => ?_⟩
  obtain ⟨action, w', s', hevent, hstep, hlive'⟩ := hlive.exists_dispatch event
  exact ⟨action, w', s'.contents, hevent, Ready.has hlive'.holds, Step.intact hstep hs,
    Step.changes hstep hs⟩

end TodoList

end TerminalUI
