import TerminalUI.Proofs.Program.Correspondence
import TerminalUI.Proofs.State.Kept

/-!
# Programs that are alike

Two programs are alike when they are in step from all sessions that correspond. Programs that are put
together from such are such again, and every operation of a component has its lemma here: the
variables, the binding points, the seeds and the components at levels below. What they need of the
correspondence is that the entries which they read and write correspond (`Correspondence.Slot`), or
that all entries below two levels do (`Correspondence.At`). The entries may be restricted to hold
components of one sort only.
-/

namespace TerminalUI

/-! ### Programs -/

namespace Program

variable {α β γ δ : Type} {C : Correspondence} {R : α → β → Prop} {R' : γ → δ → Prop}

/-- From all sessions that correspond, the programs are in step. -/
def Alike (C : Correspondence) (R : α → β → Prop) (p : Program α) (q : Program β) : Prop :=
  ∀ s s', C.sessions s s' → InStep C R s s' p q

theorem Alike.pure {a : α} {b : β} (h : R a b) : Alike C R (pure a) (pure b) :=
  fun _ _ hs => .done hs h

theorem Alike.bind {p : Program α} {q : Program β} {f : α → Program γ} {g : β → Program δ}
    (h : Alike C R p q) (hf : ∀ a b, R a b → Alike C R' (f a) (g b)) :
    Alike C R' (p >>= f) (q >>= g) :=
  fun s s' hs => (h s s' hs).bind fun a b s s' hR hs => hf a b hR s s' hs

/-- Going on after programs with the same result. -/
theorem Alike.bind_eq {p q : Program α} {f : α → Program γ} {g : α → Program δ}
    (h : Alike C Eq p q) (hf : ∀ a, Alike C R' (f a) (g a)) :
    Alike C R' (p >>= f) (q >>= g) := by
  refine h.bind ?_
  rintro a _ rfl
  exact hf a

theorem Alike.fault (f : Fault) : Alike C R (fault f) (fault f) :=
  fun _ _ hs => .fault hs (C.faults_refl f)

theorem Alike.ofExcept (r : Except Fault α) : Alike C Eq (ofExcept r) (ofExcept r) := by
  cases r with
  | ok a => exact .pure rfl
  | error f => exact .fault f

theorem Alike.ite {c : Prop} [Decidable c] {p q : Program α} {p' q' : Program β}
    (hp : c → Alike C R p p') (hq : ¬ c → Alike C R q q') :
    Alike C R (if c then p else q) (if c then p' else q') := by
  split
  · exact hp ‹_›
  · exact hq ‹_›

end Program

/-- Handlers that are alike for every event. -/
def Handler.Alike (C : Correspondence) (h h' : Handler) : Prop :=
  ∀ event, (h event).Alike C Eq (h' event)

/-- Scenes that show the same and whose handlers are alike. -/
structure Scene.Alike (C : Correspondence) (scene scene' : Scene) : Prop where
  view : scene.view = scene'.view
  handler : scene.handler.Alike C scene'.handler

theorem Handler.Alike.unused (C : Correspondence) : Handler.unused.Alike C Handler.unused :=
  fun _ => .pure rfl

theorem Handler.Alike.withBinding {C : Correspondence} {level level' : Path} {h h' : Handler}
    (hhandler : h.Alike C h') (hlevels : C.levels level level') (tag : String) :
    (withBinding level tag h).Alike C (withBinding level' tag h') :=
  fun _ _ _ hs => .dispatch hs hlevels (fun e s s' hs => (hhandler e s s' hs).toReaction)
    fun _ _ _ hs => .done hs rfl

/-! ### Entries that correspond -/

namespace Correspondence

variable {α : Type} [Storable α] {C : Correspondence} {kept : Value → Prop} {sort : Blueprint → Bool}
  {p p' level level' : Path} {s s' : Session} {name : String}

/-- Reads and writes that give the same, or are both in error. -/
inductive Fallible {α β : Type} (C : Correspondence) (R : α → β → Prop) :
    Except Error α → Except Error β → Prop where
  | ok {a : α} {b : β} (h : R a b) : Fallible C R (.ok a) (.ok b)
  | error {e e' : Error} (h : C.faults (.state e) (.state e')) : Fallible C R (.error e) (.error e')

/-- The entries at two paths hold the same, which is a value that may be kept there, and every other
such value can be written to both of them or to none. -/
structure Slot (C : Correspondence) (kept : Value → Prop) (p p' : Path) : Prop where
  resolve : ∀ {s s'}, C.sessions s s' → s.tree.resolve p = s'.tree.resolve p'
  held : ∀ {s s' v}, C.sessions s s' → s.tree.resolve p = some v → kept v
  update : ∀ {s s' v}, C.sessions s s' → kept v →
    C.Fallible (fun t t' => C.sessions { s with tree := t } { s' with tree := t' })
      (s.tree.update p v) (s'.tree.update p' v)
  /-- What reports the paths is the same or need not be. -/
  faults : ∀ {e e' : Error}, (p = p' → e = e') → C.faults (.state e) (.state e')

theorem Slot.load (h : C.Slot kept p p') (hs : C.sessions s s') :
    C.Fallible (fun a b : α => a = b ∧ kept (Storable.store a))
      (s.tree.load α p) (s'.tree.load α p') := by
  rw [Tree.load, Tree.load, ← h.resolve hs]
  cases hvalue : s.tree.resolve p with
  | none =>
    refine .error (h.faults ?_)
    rintro rfl
    rfl
  | some v =>
    cases hload : Storable.load? (α := α) v with
    | none =>
      dsimp only
      rw [hload]
      refine .error (h.faults ?_)
      rintro rfl
      rfl
    | some a =>
      dsimp only
      rw [hload]
      refine .ok ⟨rfl, ?_⟩
      rw [Storable.store_of_load? v a hload]
      exact h.held hs hvalue

omit [Storable α] in
theorem Slot.value? (h : C.Slot kept p p') :
    (Var.value? (Var.mk (α := α) p)).Alike C Eq (Var.value? (Var.mk (α := α) p')) :=
  fun _ _ hs => .read (.done hs (h.resolve hs))

theorem Slot.tryGet (h : C.Slot kept p p') :
    (Var.tryGet (Var.mk (α := α) p)).Alike C
      (C.Fallible fun a b : α => a = b ∧ kept (Storable.store a))
      (Var.tryGet (Var.mk (α := α) p')) :=
  fun _ _ hs => .read (.done hs (h.load hs))

/-- Reading an entry gives the same value, one that may be kept there. -/
theorem Slot.get_kept (h : C.Slot kept p p') :
    (Var.get (Var.mk (α := α) p)).Alike C
      (fun a b => a = b ∧ kept (Storable.store a))
      (Var.get (Var.mk (α := α) p')) := by
  refine h.tryGet.bind ?_
  rintro r r' (hR | hfault)
  · exact .pure hR
  · exact fun _ _ hs => .fault hs hfault

theorem Slot.get (h : C.Slot kept p p') :
    (Var.get (Var.mk (α := α) p)).Alike C Eq (Var.get (Var.mk (α := α) p')) := by
  refine h.tryGet.bind ?_
  rintro r r' (⟨rfl, -⟩ | hfault)
  · exact .pure rfl
  · exact fun _ _ hs => .fault hs hfault

theorem Slot.getD (h : C.Slot kept p p') (default : α) :
    (Var.getD (Var.mk p) default).Alike C Eq (Var.getD (Var.mk p') default) := by
  refine h.tryGet.bind ?_
  rintro r r' (⟨rfl, -⟩ | -)
  · exact .pure rfl
  · exact .pure rfl

theorem Slot.set (h : C.Slot kept p p') {a : α} (ha : kept (Storable.store a)) :
    (Var.set (Var.mk p) a).Alike C Eq (Var.set (Var.mk p') a) := by
  intro s s' hs
  refine .read ?_
  have hupdate := h.update hs ha
  change Program.InStep C Eq s s' (Program.bind (.done s.tree) _) (Program.bind (.done s'.tree) _)
  simp only [Program.bind]
  generalize s.tree.update p (Storable.store a) = r at hupdate
  generalize s'.tree.update p' (Storable.store a) = r' at hupdate
  cases hupdate with
  | ok ht => exact .write (.done ht rfl)
  | error hfault => exact .fault hs hfault

theorem Slot.modify (h : C.Slot kept p p') {f : α → α}
    (hf : ∀ a, kept (Storable.store (f a))) :
    (Var.modify (Var.mk p) f).Alike C Eq (Var.modify (Var.mk p') f) :=
  h.get.bind_eq fun a => h.set (hf a)

/-- A variable of two levels, made where there is none. -/
theorem Slot.stateAt (h : C.Slot kept (level.child name) (level'.child name)) {initial : α}
    (hinitial : kept (Storable.store initial)) :
    (stateAt level name initial).Alike C
      (fun v v' => v = ⟨level.child name⟩ ∧ v' = ⟨level'.child name⟩)
      (stateAt level' name initial) := by
  refine h.value?.bind_eq fun v => ?_
  split
  · exact (h.set hinitial).bind_eq fun _ => .pure ⟨rfl, rfl⟩
  · exact .pure ⟨rfl, rfl⟩

/-- Going on with a variable of two levels. -/
theorem Slot.stateAt_bind {β γ : Type} {R : β → γ → Prop}
    (h : C.Slot kept (level.child name) (level'.child name)) {initial : α}
    (hinitial : kept (Storable.store initial)) {f : Var α → Program β} {g : Var α → Program γ}
    (hf : (f ⟨level.child name⟩).Alike C R (g ⟨level'.child name⟩)) :
    (TerminalUI.stateAt level name initial >>= f).Alike C R
      (TerminalUI.stateAt level' name initial >>= g) := by
  refine (h.stateAt hinitial).bind ?_
  rintro _ _ ⟨rfl, rfl⟩
  exact hf

theorem Slot.seed (h : C.Slot kept p p') {v : Value} (hv : kept v) :
    (Component.seed p v).Alike C Eq (Component.seed p' v) := by
  intro s s' hs
  refine .read ?_
  change Program.InStep C Eq s s' (if (s.tree.resolve p).isNone then _ else _)
    (if (s'.tree.resolve p').isNone then _ else _)
  rw [← h.resolve hs]
  split
  · have hupdate := h.update hs hv
    generalize s.tree.update p v = r at hupdate
    generalize s'.tree.update p' v = r' at hupdate
    cases hupdate with
    | ok ht => exact .write (.done ht rfl)
    | error hfault => exact .fault hs hfault
  · exact .done hs rfl

/-! ### Levels that correspond -/

/-- All entries below two levels correspond. -/
structure At (C : Correspondence) (sort : Blueprint → Bool) (level level' : Path) : Prop where
  levels : ∀ p, C.levels (level ++ p) (level' ++ p)
  slot : ∀ p, p ≠ .root → C.Slot (·.keepsOnly sort = true) (level ++ p) (level' ++ p)

theorem At.self (h : C.At sort level level') : C.levels level level' := by
  have := h.levels .root
  rwa [Path.append_root, Path.append_root] at this

theorem At.entry (h : C.At sort level level') (name : Name) :
    C.Slot (·.keepsOnly sort = true) (level.child name) (level'.child name) :=
  h.slot (.ofList [name]) (Path.ofList_singleton_ne_root name)

theorem At.child (h : C.At sort level level') (name : String) :
    C.At sort (level.child name) (level'.child name) where
  levels p := by
    rw [Path.child_append, Path.child_append]
    exact h.levels (.ofList [name] ++ p)
  slot p hp := by
    rw [Path.child_append, Path.child_append]
    exact h.slot (.ofList [name] ++ p) (Path.append_ne_root _ hp)

/-! ### Components at levels that correspond -/

/-- The component makes the same scene at all levels that correspond. -/
def Portable (C : Correspondence) (sort : Blueprint → Bool) (c : Component) : Prop :=
  ∀ level level', C.At sort level level' → (c level).Alike C (Scene.Alike C) (c level')

/-- A component with its message of a failed hook, at two levels. -/
theorem Slot.invoke (h : C.Slot kept (level.child errorName) (level'.child errorName))
    {c : Component} (hc : (c level).Alike C (Scene.Alike C) (c level')) :
    (c.invoke level).Alike C (Scene.Alike C) (c.invoke level') := by
  refine hc.bind fun scene scene' hscene => ?_
  refine h.tryGet.bind ?_
  rintro r r' (⟨rfl, -⟩ | -)
  · exact .pure ⟨rfl, hscene.handler⟩
  · exact .pure hscene

/-- The component kept under a name, if the components of the sort make the same scenes. The level
below has to correspond, and so has the entry that holds it. -/
theorem Slot.subcomponent (h : C.Slot kept (level.child name) (level'.child name))
    (hmap : kept (.map .empty))
    (hchild : C.At sort (level.child name) (level'.child name))
    {interpret : Blueprint → Component}
    (hinterpret : ∀ b : Blueprint, b.keepsOnly sort = true → C.Portable sort (interpret b))
    {b : Blueprint} (hb : b.keepsOnly sort = true) :
    (Component.subcomponent interpret level name b).Alike C (Scene.Alike C)
      (Component.subcomponent interpret level' name b) := by
  have hentry := hchild.entry componentName
  have hempty : kept (Storable.store Tree.empty) := hmap
  refine (h.stateAt hempty).bind fun _ _ _ => ?_
  have hstore : (Storable.store b).keepsOnly sort = true := hb
  refine (hentry.stateAt hstore).bind ?_
  rintro _ _ ⟨rfl, rfl⟩
  refine hentry.get_kept.bind ?_
  rintro kept _ ⟨rfl, hkept⟩
  exact (hchild.entry errorName).invoke (hinterpret kept hkept _ _ hchild)

theorem At.subcomponent (h : C.At sort level level') {name : Name}
    {interpret : Blueprint → Component}
    (hinterpret : ∀ b : Blueprint, b.keepsOnly sort = true → C.Portable sort (interpret b))
    {b : Blueprint} (hb : b.keepsOnly sort = true) :
    (Component.subcomponent interpret level name b).Alike C (Scene.Alike C)
      (Component.subcomponent interpret level' name b) :=
  (h.entry name).subcomponent rfl (h.child name) hinterpret hb

/-- A component with a seed below its level. -/
theorem Portable.withState {c : Component} (hc : C.Portable sort c) {path : Path}
    (hpath : path ≠ .root) {v : Value} (hv : v.keepsOnly sort = true) :
    C.Portable sort (c.withStates [(path, v)]) := by
  intro level level' h
  refine Program.Alike.bind_eq ?_ fun _ => hc level level' h
  exact ((h.slot path hpath).seed hv).bind_eq fun _ => .pure rfl

end Correspondence

end TerminalUI
