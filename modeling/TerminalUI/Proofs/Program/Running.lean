import TerminalUI.Component
import TerminalUI.Proofs.State.Level

/-!
# Runs at a level

A component and its handlers read and write the map at their level. `UI.Leads` says of a run that,
in every session with one map at the level, it ends with a result and leaves another map there; all
that is neither above nor below the level stays as it was, and nothing is recorded. So a run that
leads somewhere is no fault. Runs are put together by `UI.Leads.bind`, and every operation on a
variable of the level has its lemma here, as has a binding point (`Program.Leads.dispatch_none`,
`Program.Leads.dispatch_some`).
-/

namespace TerminalUI

/-- Going on after a step that succeeded, whether of an application or of a terminal. -/
theorem run_bind_of_ok {ε σ α β : Type} {c : ExceptT ε (StateM σ) α}
    {f : α → ExceptT ε (StateM σ) β} {s s' : σ} {a : α} (h : c.run s = (.ok a, s')) :
    (c >>= f).run s = (f a).run s' := by
  change (match c.run s with | (r, s') => ExceptT.bindCont f r s') = _
  rw [h]
  rfl

namespace UI

variable {α β : Type} {level : Path} {m m' m'' : Tree}

/-- In every session with the map `m` at the level, the run ends with `a` and leaves `m'` there. -/
def Leads (level : Path) (c : UI α) (m : Tree) (a : α) (m' : Tree) : Prop :=
  ∀ s : Session, s.tree.resolve level = some (.map m) →
    ∃ t, c.run s = (.ok a, { s with tree := t }) ∧ t.resolve level = some (.map m') ∧
      Tree.SameOutside level s.tree t

theorem run_tree (s : Session) : tree.run s = (.ok s.tree, s) := rfl

theorem Leads.pure (a : α) : Leads level (pure a) m a m :=
  fun s hs => ⟨s.tree, rfl, hs, .refl level s.tree⟩

theorem Leads.bind {c : UI α} {f : α → UI β} {a : α} {b : β} (hc : Leads level c m a m')
    (hf : Leads level (f a) m' b m'') : Leads level (c >>= f) m b m'' := by
  intro s hs
  obtain ⟨t, hrun, ht, hsame⟩ := hc s hs
  obtain ⟨t', hrun', ht', hsame'⟩ := hf { s with tree := t } ht
  exact ⟨t', by rw [run_bind_of_ok hrun, hrun'], ht', hsame.trans hsame'⟩

/-- Going on with the tree is going on with whatever tree has the map at the level. -/
theorem Leads.tree_bind {f : Tree → UI β} {b : β}
    (h : ∀ t : Tree, t.resolve level = some (.map m) → Leads level (f t) m b m') :
    Leads level (tree >>= f) m b m' := by
  intro s hs
  rw [run_bind_of_ok (run_tree s)]
  exact h s.tree hs s hs

/-- A write that puts another map at the level, whatever the tree is. -/
theorem Leads.tree_commit {write : Tree → Except Error Tree}
    (h : ∀ t : Tree, t.resolve level = some (.map m) →
      ∃ t', write t = .ok t' ∧ t'.resolve level = some (.map m') ∧
        Tree.SameOutside level t t') :
    Leads level (tree >>= fun t => commit (write t)) m () m' := by
  intro s hs
  obtain ⟨t', hwrite, hresolve, hsame⟩ := h s.tree hs
  rw [run_bind_of_ok (run_tree s), hwrite]
  exact ⟨t', rfl, hresolve, hsame⟩

end UI

namespace Program

variable {α β : Type} {hook : Option Hook} {level : Path} {m m' m'' : Tree}

/-- Under a hook, the program leads from one map at the level to another one. -/
def Leads (hook : Option Hook) (level : Path) (p : Program α) (m : Tree) (a : α)
    (m' : Tree) : Prop :=
  UI.Leads level (p.run hook) m a m'

theorem Leads.pure (a : α) : Leads hook level (pure a) m a m := UI.Leads.pure a

theorem Leads.bind {p : Program α} {f : α → Program β} {a : α} {b : β}
    (hp : Leads hook level p m a m') (hf : Leads hook level (f a) m' b m'') :
    Leads hook level (p >>= f) m b m'' := by
  rw [Leads, bind_eq, run_bind]
  exact UI.Leads.bind hp hf

theorem Leads.ofExcept {r : Except Fault α} {a : α} (h : r = .ok a) :
    Leads hook level (ofExcept r) m a m := by
  rw [h]
  exact UI.Leads.pure a

theorem Leads.tree_bind {f : Tree → Program β} {b : β}
    (h : ∀ t : Tree, t.resolve level = some (.map m) → Leads hook level (f t) m b m') :
    Leads hook level (tree >>= f) m b m' :=
  UI.Leads.tree_bind h

theorem Leads.tree_write {write : Tree → Except Error Tree}
    (h : ∀ t : Tree, t.resolve level = some (.map m) →
      ∃ t', write t = .ok t' ∧ t'.resolve level = some (.map m') ∧
        Tree.SameOutside level t t') :
    Leads hook level (tree >>= fun t => match write t with
      | .ok t => setTree t
      | .error e => .fault (.state e)) m () m' := by
  have hrun (t : Tree) : (match write t with
      | .ok t => setTree t
      | .error e => .fault (.state e) : Program Unit).run hook = UI.commit (write t) := by
    cases write t <;> rfl
  rw [Leads, bind_eq, run_bind]
  simp only [hrun]
  exact UI.Leads.tree_commit h

end Program

/-! ### Variables of the level -/

namespace Var

open Program

variable {α : Type} [Storable α] {hook : Option Hook} {level : Path} {m : Tree} {name : Name}
  {a : α}

theorem load_child {t : Tree} (ht : t.resolve level = some (.map m))
    (ha : m.get? name = some (Storable.store a)) : t.load α (level.child name) = .ok a := by
  simp only [Tree.load, Tree.resolve_child ht, ha, Storable.load?_store]

theorem leads_tryGet (ha : m.get? name = some (Storable.store a)) :
    Leads hook level (tryGet ⟨level.child name⟩) m (.ok a) m := by
  refine .tree_bind fun t ht => ?_
  rw [load_child ht ha]
  exact .pure _

theorem leads_get (ha : m.get? name = some (Storable.store a)) :
    Leads hook level (get ⟨level.child name⟩) m a m :=
  .bind (leads_tryGet ha) (.pure a)

theorem leads_getD (ha : m.get? name = some (Storable.store a)) (default : α) :
    Leads hook level (getD ⟨level.child name⟩ default) m a m :=
  .bind (leads_tryGet ha) (.pure a)

theorem leads_set (a : α) :
    Leads hook level (set ⟨level.child name⟩ a) m () (m.insert name (Storable.store a)) :=
  .tree_write fun _ ht => Tree.update_child ht _

theorem leads_modify (ha : m.get? name = some (Storable.store a)) (f : α → α) :
    Leads hook level (modify ⟨level.child name⟩ f) m ()
      (m.insert name (Storable.store (f a))) :=
  .bind (leads_get ha) (leads_set (f a))

/-- A variable of the level gets its initial value if nothing is there. -/
theorem leads_stateAt (initial : α) :
    Leads hook level (stateAt level name initial) m ⟨level.child name⟩
      (m.withDefault name (Storable.store initial)) := by
  have hvalue : Leads hook level (value? (Var.mk (α := α) (level.child name))) m
      (m.get? name) m := by
    refine .tree_bind fun t ht => ?_
    rw [Tree.resolve_child ht]
    exact .pure _
  refine .bind hvalue ?_
  unfold Tree.withDefault
  split
  · exact .bind (leads_set initial) (.pure _)
  · exact .pure _

end Var

/-! ### Binding points -/

/-- The map at a level after an action of a hook: the message of an earlier failure is gone. -/
def Tree.withoutError (m : Tree) : Tree :=
  if (m.get? errorName).isSome then m.erase errorName else m

theorem Tree.get?_withoutError (m : Tree) (key : String) :
    m.withoutError.get? key = if key = errorName then none else m.get? key := by
  unfold withoutError
  split
  · exact get?_erase errorName key m
  · rename_i h
    by_cases hkey : key = errorName
    · rw [if_pos hkey, hkey]
      simpa using h
    · rw [if_neg hkey]

namespace Program

variable {level : Path} {m m' : Tree} {tag : String} {event : Event} {handler : Handler}
  {action : Action}

theorem run_withBinding (hook : Option Hook) :
    (withBinding level tag handler event).run hook =
      dispatchThrough hook level tag event fun e => (handler e).run hook := by
  simp [withBinding, run, run_toReaction]

theorem Leads.dispatch_none (h : Leads none level (handler event) m action m') :
    Leads none level (withBinding level tag handler event) m action m' := by
  rw [Leads, run_withBinding]
  exact h

/-- A hook that answers with an action takes the message of an earlier failure away. -/
theorem Leads.dispatch_some {hook : Hook}
    (h : UI.Leads level (hook event level tag fun e => (handler e).run (some hook)) m
      (.ok action) m') :
    Leads (some hook) level (withBinding level tag handler event) m action
      m'.withoutError := by
  rw [Leads, run_withBinding]
  refine .bind h fun s hs => ?_
  rw [Tree.withoutError]
  by_cases hentry : (m'.get? errorName).isSome
  · obtain ⟨t, hremove, ht, hsame⟩ := Tree.remove_child hs hentry
    refine ⟨t, ?_, by rwa [if_pos hentry], hsame⟩
    rw [run_bind_of_ok (UI.run_tree s), Tree.resolve_child hs, if_pos hentry, hremove]
    rfl
  · refine ⟨s.tree, ?_, by rwa [if_neg hentry], .refl level s.tree⟩
    rw [run_bind_of_ok (UI.run_tree s), Tree.resolve_child hs, if_neg hentry]
    rfl

end Program

end TerminalUI
