import TerminalUI.Proofs.Program.Steps
import TerminalUI.Proofs.State.Growth

/-!
# Programs that end with a result

`UI.Ends` and `Program.Ends` say what is so whenever a computation ends with a result: of the tree
before it, the result, and the tree after it. Nothing is said of a computation that ends in a fault.
A bind is gone through from left to right (`Ends.bind`), and what only reads leaves nothing to
remember (`Ends.reads_bind`).

What a handler answers tells whether the hook of a binding point, or the program that called it, has
to look at what was written; so the relations here go by the result too.
-/

namespace TerminalUI

variable {α β : Type} {hook : Option Hook} {t t' : Tree} {level : Path} {name : Name}

/-- Whenever the computation ends with a result, the tree before, the result and the tree after are
related. -/
def UI.Ends (Q : Tree → α → Tree → Prop) (c : UI α) : Prop :=
  ∀ ⦃s s' : Session⦄ ⦃a : α⦄, c.run s = (.ok a, s') → Q s.tree a s'.tree

/-- Whenever the program ends with a result under the hook, the tree before, the result and the tree
after are related. -/
def Program.Ends (hook : Option Hook) (Q : Tree → α → Tree → Prop) (p : Program α) : Prop :=
  UI.Ends Q (p.run hook)

variable {Q : Tree → α → Tree → Prop} {R : Tree → β → Tree → Prop}

namespace UI.Ends

theorem pure {a : α} (h : ∀ t, Q t a t) : UI.Ends Q (pure a) := by
  rintro s s' b ⟨⟩
  exact h s.tree

theorem bind {c : UI α} {f : α → UI β} (hc : UI.Ends Q c)
    (hf : ∀ a, UI.Ends (fun t b t' => ∀ t₀, Q t₀ a t → R t₀ b t') (f a)) :
    UI.Ends R (c >>= f) := by
  intro s s' b hrun
  obtain ⟨a, s₁, hfirst, hrest⟩ := exists_of_run_bind_eq_ok hrun
  exact hf a hrest s.tree (hc hfirst)

/-- Going on after a computation that has changed nothing. -/
theorem reads_bind {c : UI α} {f : α → UI β} (hc : UI.Ends (fun t _ t' => t' = t) c)
    (hf : ∀ a, UI.Ends R (f a)) : UI.Ends R (c >>= f) := by
  refine hc.bind fun a s s' b hrun t₀ heq => ?_
  exact heq ▸ hf a hrun

theorem mono {c : UI α} {P : Tree → α → Tree → Prop} (hc : UI.Ends Q c)
    (hP : ∀ t a t', Q t a t' → P t a t') : UI.Ends P c :=
  fun _ _ _ hrun => hP _ _ _ (hc hrun)

end UI.Ends

namespace Program.Ends

theorem pure {a : α} (h : ∀ t, Q t a t) : (pure a : Program α).Ends hook Q := UI.Ends.pure h

theorem fault (f : Fault) : (fault f : Program α).Ends hook Q := by
  rintro s s' a ⟨⟩

theorem bind {p : Program α} {f : α → Program β} (hp : p.Ends hook Q)
    (hf : ∀ a, (f a).Ends hook fun t b t' => ∀ t₀, Q t₀ a t → R t₀ b t') :
    (p >>= f).Ends hook R := by
  rw [Program.Ends, bind_eq, run_bind]
  exact UI.Ends.bind hp hf

/-- Going on after a program that has changed nothing. -/
theorem reads_bind {p : Program α} {f : α → Program β} (hp : p.Ends hook fun t _ t' => t' = t)
    (hf : ∀ a, (f a).Ends hook R) : (p >>= f).Ends hook R := by
  rw [Program.Ends, bind_eq, run_bind]
  exact UI.Ends.reads_bind hp hf

theorem mono {p : Program α} {P : Tree → α → Tree → Prop} (hp : p.Ends hook Q)
    (hP : ∀ t a t', Q t a t' → P t a t') : p.Ends hook P :=
  UI.Ends.mono hp hP

theorem ite {c : Prop} [Decidable c] {p q : Program α} (hp : c → p.Ends hook Q)
    (hq : ¬ c → q.Ends hook Q) : (if c then p else q).Ends hook Q := by
  by_cases h : c
  · rw [if_pos h]
    exact hp h
  · rw [if_neg h]
    exact hq h

theorem ofExcept (r : Except Fault α) : (ofExcept r).Ends hook fun t _ t' => t' = t := by
  cases r with
  | ok a => exact pure fun _ => rfl
  | error f => exact fault f

/-- A program without binding points, as a part of a hook. -/
theorem perform {p : Program α} (hp : p.Ends none Q) : UI.Ends Q p.perform := hp

/-! ### Operations -/

variable [Storable α]

theorem tryGet (v : Var α) : v.tryGet.Ends hook fun t _ t' => t' = t := by
  rintro s s' a ⟨⟩
  rfl

theorem get (v : Var α) : v.get.Ends hook fun t _ t' => t' = t := by
  refine (tryGet v).reads_bind fun r => ?_
  cases r with
  | ok a => exact pure fun _ => rfl
  | error e => exact fault _

theorem getD (v : Var α) (default : α) : (v.getD default).Ends hook fun t _ t' => t' = t := by
  refine (tryGet v).reads_bind fun r => ?_
  cases r with
  | ok a => exact pure fun _ => rfl
  | error e => exact pure fun _ => rfl

/-- What is read is what the tree holds. -/
theorem get_value (v : Var α) :
    v.get.Ends hook fun t a t' => t' = t ∧ t.resolve v.path = some (Storable.store a) :=
  fun _ _ _ hrun => ⟨get v hrun, Var.resolve_of_run_get hrun⟩

/-- A write to an entry of the level. -/
theorem set_value (a : α) : ((Var.mk (level.child name)).set a).Ends hook
    fun t _ t' => Tree.SameBeside level {name} t t' ∧
      t'.resolve (level.child name) = some (Storable.store a) := by
  intro s s' _ hrun
  have hupdate := Var.update_of_run_set hrun
  exact ⟨Tree.sameBeside_update (List.prefix_refl _) hupdate,
    (Tree.update_eq_ok_iff.mp hupdate).resolveFrom_self⟩

theorem set (a : α) : ((Var.mk (level.child name)).set a).Ends hook
    fun t _ t' => Tree.SameBeside level {name} t t' :=
  (set_value a).mono fun _ _ _ hset => hset.1

theorem modify (f : α → α) : ((Var.mk (level.child name)).modify f).Ends hook
    fun t _ t' => Tree.SameBeside level {name} t t' :=
  (get _).reads_bind fun a => set (f a)

/-- A variable of the level is made where it is missing, and left as it is elsewhere. -/
theorem stateAt (initial : α) : (stateAt level name initial).Ends hook
    fun t v t' => v = ⟨level.child name⟩ ∧ Tree.SameBeside level {name} t t' ∧
      t'.resolve (level.child name) =
        (t.resolve (level.child name)).or (some (Storable.store initial)) := by
  intro s s' v hrun
  refine ⟨eq_of_run_stateAt hrun, ?_⟩
  cases hvalue : s.tree.resolve (level.child name) with
  | some w =>
    rw [run_stateAt_of_isSome (by rw [hvalue, Option.isSome_some])] at hrun
    cases hrun
    exact ⟨.refl level _ _, hvalue⟩
  | none =>
    rw [run_stateAt_of_eq_none hvalue] at hrun
    cases hupdate : s.tree.update (level.child name) (Storable.store initial) with
    | error e =>
      rw [hupdate] at hrun
      cases hrun
    | ok t =>
      rw [hupdate] at hrun
      cases hrun
      exact ⟨Tree.sameBeside_update (List.prefix_refl _) hupdate,
        (Tree.update_eq_ok_iff.mp hupdate).resolveFrom_self⟩

/-- Going on with a variable of the level. -/
theorem stateAt_bind {initial : α} {f : Var α → Program β}
    (hf : (f ⟨level.child name⟩).Ends hook fun t b t' => ∀ t₀,
      Tree.SameBeside level {name} t₀ t → t.resolve (level.child name) =
        (t₀.resolve (level.child name)).or (some (Storable.store initial)) → R t₀ b t') :
    (TerminalUI.stateAt level name initial >>= f).Ends hook R := by
  refine (stateAt initial).bind fun v s s' b hrun t₀ hv => ?_
  obtain ⟨rfl, hsame, hvalue⟩ := hv
  exact hf hrun t₀ hsame hvalue

/-- The scene of an invocation has the handler of the component's own scene. -/
theorem invoke {c : Component} {P : Tree → Handler → Tree → Prop}
    (hc : (c level).Ends hook fun t scene t' => P t scene.handler t') :
    (c.invoke level).Ends hook fun t scene t' => P t scene.handler t' := by
  refine hc.bind fun scene => (tryGet _).reads_bind fun message => ?_
  cases message with
  | ok message => exact pure fun t t₀ hscene => hscene
  | error e => exact pure fun t t₀ hscene => hscene

end Program.Ends

end TerminalUI
