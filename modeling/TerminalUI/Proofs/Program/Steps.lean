import TerminalUI.Component
import TerminalUI.Proofs.Application.Rounds

/-!
# What one operation does

The outcome of every operation on a variable, for all sessions, as the tree at hand decides it: a
read or a write of a tree is a step of the run, and a variable is read by `Tree.load` and written by
`Tree.update`. What a program has come from when it ends with a result is told by
`exists_of_run_bind_eq_ok`.
-/

namespace TerminalUI

/-- Before a program that ends with a result, there was another one that did. -/
theorem exists_of_run_bind_eq_ok {ε σ α β : Type} {c : ExceptT ε (StateM σ) α}
    {f : α → ExceptT ε (StateM σ) β} {s s' : σ} {b : β} (h : (c >>= f).run s = (.ok b, s')) :
    ∃ a s₁, c.run s = (.ok a, s₁) ∧ (f a).run s₁ = (.ok b, s') := by
  rcases hc : c.run s with ⟨e | a, s₁⟩
  · rw [run_bind_of_error hc] at h
    cases h
  · rw [run_bind_of_ok hc] at h
    exact ⟨a, s₁, rfl, h⟩

namespace Program

variable {α β : Type} {hook : Option Hook} {s : Session}

theorem exists_of_run_bind_eq_ok {p : Program α} {f : α → Program β} {b : β} {s' : Session}
    (h : ((p >>= f).run hook).run s = (.ok b, s')) :
    ∃ a s₁, (p.run hook).run s = (.ok a, s₁) ∧ ((f a).run hook).run s₁ = (.ok b, s') := by
  rw [bind_eq, run_bind] at h
  exact TerminalUI.exists_of_run_bind_eq_ok h

theorem run_bind_of_ok {p : Program α} {a : α} {s₁ : Session}
    (h : (p.run hook).run s = (.ok a, s₁)) (f : α → Program β) :
    ((p >>= f).run hook).run s = ((f a).run hook).run s₁ := by
  rw [bind_eq, run_bind, TerminalUI.run_bind_of_ok h]

theorem run_bind_of_error {p : Program α} {e : Fault} {s₁ : Session}
    (h : (p.run hook).run s = (.error e, s₁)) (f : α → Program β) :
    ((p >>= f).run hook).run s = (.error e, s₁) := by
  rw [bind_eq, run_bind, TerminalUI.run_bind_of_error h]

/-- A loop fails where one of its turns fails, after those before it went well. -/
theorem run_forM_eq_error_iff {as : List α} {f : α → Program PUnit} {e : Fault} {s' : Session} :
    ((as.forM f).run hook).run s = (.error e, s') ↔
      ∃ front a rest s₁, as = front ++ a :: rest ∧ ((front.forM f).run hook).run s = (.ok (), s₁) ∧
        ((f a).run hook).run s₁ = (.error e, s') := by
  constructor
  · intro h
    induction as generalizing s with
    | nil => cases h
    | cons a rest ih =>
      rcases hturn : ((f a).run hook).run s with ⟨e' | ⟨⟩, s₁⟩
      · have hstop := run_bind_of_error hturn fun _ => rest.forM f
        exact ⟨[], a, rest, s, rfl, rfl, hturn.trans (hstop.symm.trans h)⟩
      · have hstep := run_bind_of_ok hturn fun _ => rest.forM f
        obtain ⟨front, b, rest', s₂, rfl, hfront, hb⟩ := ih (hstep.symm.trans h)
        exact ⟨a :: front, b, rest', s₂, rfl, (run_bind_of_ok hturn _).trans hfront, hb⟩
  · rintro ⟨front, a, rest, s₁, rfl, hfront, hturn⟩
    have happend : (front ++ a :: rest).forM f = (front.forM f >>= fun _ => (a :: rest).forM f) :=
      List.forM_append
    rw [happend, run_bind_of_ok hfront]
    exact run_bind_of_error hturn fun _ => rest.forM f

end Program

namespace Var

variable {α : Type} [Storable α] (hook : Option Hook) (s : Session) (p : Path)

omit [Storable α] in
theorem run_value? :
    ((value? (Var.mk (α := α) p)).run hook).run s = (.ok (s.tree.resolve p), s) := rfl

theorem run_tryGet :
    ((tryGet (Var.mk (α := α) p)).run hook).run s = (.ok (s.tree.load α p), s) := rfl

theorem run_get : ((get (Var.mk (α := α) p)).run hook).run s =
    match s.tree.load α p with
    | .ok a => (.ok a, s)
    | .error e => (.error (.state e), s) := by
  rw [get, Program.run_bind_of_ok (run_tryGet hook s p)]
  cases s.tree.load α p <;> rfl

variable {s p} in
/-- A variable that holds an element of its type is read. -/
theorem run_get_of_resolve {a : α} (h : s.tree.resolve p = some (Storable.store a)) :
    ((get (Var.mk (α := α) p)).run hook).run s = (.ok a, s) := by
  have hload : s.tree.load α p = .ok a := by simp only [Tree.load, h, Storable.load?_store]
  rw [run_get, hload]

variable {s p} in
theorem run_getD_of_resolve {a : α} (h : s.tree.resolve p = some (Storable.store a))
    (default : α) : ((getD (Var.mk (α := α) p) default).run hook).run s = (.ok a, s) := by
  have hload : s.tree.load α p = .ok a := by simp only [Tree.load, h, Storable.load?_store]
  rw [getD, Program.run_bind_of_ok (run_tryGet hook s p), hload]
  rfl

theorem run_set (a : α) : ((set (Var.mk p) a).run hook).run s =
    match s.tree.update p (Storable.store a) with
    | .ok t => (.ok (), { s with tree := t })
    | .error e => (.error (.state e), s) := by
  have hstep : ((set (Var.mk p) a).run hook).run s =
      ((match s.tree.update p (Storable.store a) with
        | .ok t => Program.setTree t
        | .error e => .fault (.state e) : Program Unit).run hook).run s := rfl
  rw [hstep]
  cases s.tree.update p (Storable.store a) <;> rfl

omit [Storable α] in
theorem run_clear : ((clear (Var.mk (α := α) p)).run hook).run s =
    match s.tree.remove p with
    | .ok t => (.ok (), { s with tree := t })
    | .error e => (.error (.state e), s) := by
  have hstep : ((clear (Var.mk (α := α) p)).run hook).run s =
      ((match s.tree.remove p with
        | .ok t => Program.setTree t
        | .error e => .fault (.state e) : Program Unit).run hook).run s := rfl
  rw [hstep]
  cases s.tree.remove p <;> rfl

variable {hook s p} in
theorem update_of_run_set {s' : Session} {a : α}
    (h : ((set (Var.mk p) a).run hook).run s = (.ok (), s')) :
    s.tree.update p (Storable.store a) = .ok s'.tree := by
  rw [run_set] at h
  cases hupdate : s.tree.update p (Storable.store a) with
  | ok t =>
    rw [hupdate] at h
    cases h
    rfl
  | error e =>
    rw [hupdate] at h
    cases h

/-- What is read is what the tree holds at the place. -/
theorem resolve_of_run_get {hook : Option Hook} {s s' : Session} {p : Path} {a : α}
    (h : ((get (Var.mk p)).run hook).run s = (.ok a, s')) :
    s.tree.resolve p = some (Storable.store a) := by
  rw [run_get, Tree.load] at h
  cases hvalue : s.tree.resolve p with
  | none =>
    rw [hvalue] at h
    cases h
  | some v =>
    rw [hvalue] at h
    dsimp only at h
    cases hload : Storable.load? (α := α) v with
    | none =>
      rw [hload] at h
      cases h
    | some b =>
      rw [hload] at h
      cases h
      rw [Storable.store_of_load? v _ hload]

end Var

variable {α : Type} [Storable α] {hook : Option Hook} {s : Session} {level : Path} {name : String}

/-- A variable that is there is left as it is. -/
theorem run_stateAt_of_isSome (h : (s.tree.resolve (level.child name)).isSome) (initial : α) :
    ((stateAt level name initial).run hook).run s = (.ok ⟨level.child name⟩, s) := by
  rw [stateAt, Program.run_bind_of_ok (Var.run_value? hook s _)]
  have hnone : ¬ (s.tree.resolve (level.child name)).isNone := by
    simpa [← Option.isSome_iff_ne_none] using h
  rw [if_neg hnone]
  rfl

/-- A variable that is not there is written. -/
theorem run_stateAt_of_eq_none (h : s.tree.resolve (level.child name) = none) (initial : α) :
    ((stateAt level name initial).run hook).run s =
      match s.tree.update (level.child name) (Storable.store initial) with
      | .ok t => (.ok ⟨level.child name⟩, { s with tree := t })
      | .error e => (.error (.state e), s) := by
  have hset := Var.run_set hook s (level.child name) initial
  rw [stateAt, Program.run_bind_of_ok (Var.run_value? hook s _), h, Option.isNone_none, if_pos rfl]
  cases hupdate : s.tree.update (level.child name) (Storable.store initial) with
  | ok t =>
    rw [hupdate] at hset
    exact Program.run_bind_of_ok hset _
  | error e =>
    rw [hupdate] at hset
    exact Program.run_bind_of_error hset _

theorem eq_of_run_stateAt {initial : α} {v : Var α} {s' : Session}
    (h : ((stateAt level name initial).run hook).run s = (.ok v, s')) :
    v = ⟨level.child name⟩ := by
  cases hvalue : s.tree.resolve (level.child name) with
  | some w =>
    rw [run_stateAt_of_isSome (by rw [hvalue, Option.isSome_some])] at h
    cases h
    rfl
  | none =>
    rw [run_stateAt_of_eq_none hvalue] at h
    cases hupdate : s.tree.update (level.child name) (Storable.store initial) with
    | ok t =>
      rw [hupdate] at h
      cases h
      rfl
    | error e =>
      rw [hupdate] at h
      cases h

/-- A seed is not put where something is. -/
theorem run_seed_of_isSome {p : Path} (h : (s.tree.resolve p).isSome) (v : Value) :
    ((Component.seed p v).run hook).run s = (.ok (), s) := by
  have hnone : ¬ (s.tree.resolve p).isNone := by
    simpa [← Option.isSome_iff_ne_none] using h
  have hstep : ((Component.seed p v).run hook).run s =
      ((if (s.tree.resolve p).isNone then
          match s.tree.update p v with
          | .ok t => Program.setTree t
          | .error e => .fault (.state e)
        else pure () : Program Unit).run hook).run s := rfl
  rw [hstep, if_neg hnone]
  rfl

/-- A seed is put where nothing is. -/
theorem run_seed_of_eq_none {p : Path} (h : s.tree.resolve p = none) (v : Value) :
    ((Component.seed p v).run hook).run s =
      match s.tree.update p v with
      | .ok t => (.ok (), { s with tree := t })
      | .error e => (.error (.state e), s) := by
  have hstep : ((Component.seed p v).run hook).run s =
      ((if (s.tree.resolve p).isNone then
          match s.tree.update p v with
          | .ok t => Program.setTree t
          | .error e => .fault (.state e)
        else pure () : Program Unit).run hook).run s := rfl
  rw [hstep, h, Option.isNone_none, if_pos rfl]
  cases s.tree.update p v <;> rfl

end TerminalUI
