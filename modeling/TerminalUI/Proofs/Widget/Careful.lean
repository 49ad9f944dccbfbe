import TerminalUI.Catalog
import TerminalUI.Hook.Rules
import TerminalUI.Proofs.Hook.Messages
import TerminalUI.Proofs.Widget.Portable

/-!
# Widgets leave error entries alone

The widgets write the entries of their own levels and make the maps of the components inside them;
none of them writes an error entry. So a code area, a list box and a combo box are careful wherever
their levels are apart from each other (`BindingLevels.separate`), and hooks made of rules are, if
what the rules write is no error entry's.
-/

namespace TerminalUI

open Program

variable {levels : List Path} {sort : Blueprint → Bool} {t t' : Tree} {level l p q : Path}
  {name : Name} {v w : Value}

/-! ### Trees with components of a sort -/

namespace Tree

/-- No leaf is at one of the levels, or above. -/
def Clear (levels : List Path) (t : Tree) : Prop :=
  ∀ l ∈ levels, ∀ q w, ¬ t.Obstructs (l.child errorName) q w

theorem Clear.of_leaves (h : t.Clear levels)
    (hleaf : ∀ l ∈ levels, ∀ q w, q.segments <+: l.segments → t'.resolve q = some w →
      w.map? = none → t.resolve q = some w) : t'.Clear levels := by
  intro l hl q w hq
  rcases Path.prefix_or_eq_of_prefix_child hq.above with habove | heq
  · exact h l hl q w
      ⟨hq.above, hq.ne_root, hq.ne, hleaf l hl q w habove hq.found hq.leaf, hq.leaf⟩
  · exact absurd heq hq.ne

theorem resolveFrom_empty {names : List String} (h : names ≠ []) :
    resolveFrom (.map .empty) names = none := by
  cases names with
  | nil => exact absurd rfl h
  | cons => rfl

theorem clear_empty (levels : List Path) : Tree.empty.Clear levels := by
  intro l _ q w hq
  have hfound := hq.found
  rw [resolve, resolveFrom_empty fun hnil => hq.ne_root (Path.ext hnil)] at hfound
  cases hfound

theorem resolve_child_empty (level : Path) (name : Name) :
    Tree.empty.resolve (level.child name) = none := by
  rw [resolve, Path.segments_child, resolveFrom_empty (by simp)]

/-- A write that is neither at a level nor above one puts no leaf there. -/
theorem Clear.update (h : t.Clear levels) (hp : ∀ l ∈ levels, ¬ p.segments <+: l.segments)
    (hupdate : t.update p v = .ok t') : t'.Clear levels := by
  have hput := update_eq_ok_iff.mp hupdate
  refine h.of_leaves fun l hl q w habove hfound hleaf => ?_
  by_cases hqp : q.segments <+: p.segments
  · have hne : q.segments ≠ p.segments := fun heq => hp l hl (heq ▸ habove)
    obtain ⟨m, hm⟩ := hput.exists_map hqp hne
    rw [resolve, hm] at hfound
    cases hfound
    cases hleaf
  · have hsame : t'.resolve q = t.resolve q :=
      hput.resolveFrom_of_not_prefix (fun hpq => hp l hl (hpq.trans habove)) hqp
    rw [← hsame, hfound]

/-- An empty map where nothing was is no leaf. -/
theorem Clear.update_empty (h : t.Clear levels) (hupdate : t.update p (.map .empty) = .ok t') :
    t'.Clear levels := by
  have hput := update_eq_ok_iff.mp hupdate
  refine h.of_leaves fun l hl q w habove hfound hleaf => ?_
  by_cases hqp : q.segments <+: p.segments
  · have hself : t'.resolve p = some (.map .empty) := hput.resolveFrom_self
    obtain ⟨m, hm⟩ := exists_map_above hself hqp
    rw [hfound] at hm
    cases hm
    cases hleaf
  · by_cases hpq : p.segments <+: q.segments
    · -- below an empty map there is nothing
      obtain ⟨rest, hrest⟩ := hpq
      have hbelow : t'.resolve q = resolveFrom (.map .empty) rest := by
        rw [resolve, ← hrest, resolveFrom_append, hput.resolveFrom_self, Option.bind_some]
      rw [hbelow, resolveFrom_empty (by rintro rfl; exact hqp (by simp [← hrest]))] at hfound
      cases hfound
    · have hsame : t'.resolve q = t.resolve q := hput.resolveFrom_of_not_prefix hpq hqp
      rw [← hsame, hfound]

/-- Removing an error entry puts no leaf anywhere. -/
theorem Clear.remove (h : t.Clear levels)
    (hseparate : ∀ l ∈ levels, ¬ (level.child errorName).segments <+: l.segments)
    (hremove : t.remove (level.child errorName) = .ok t') : t'.Clear levels := by
  have hbeside : SameBeside level {errorName} t t' := sameBeside_remove hremove
  rcases eq_or_exists_of_remove_child hremove with rfl | ⟨m, -, hm', -⟩
  · exact h
  · refine h.of_leaves fun l hl q w habove hfound hleaf => ?_
    by_cases hq : q.segments <+: level.segments
    · obtain ⟨m', hm'⟩ := exists_map_above hm' hq
      rw [hfound] at hm'
      cases hm'
      cases hleaf
    · have hsame : t'.resolve q = t.resolve q := by
        refine hbeside q hq fun name hname hbelow => ?_
        rw [Set.mem_singleton_iff.mp hname] at hbelow
        exact hseparate l hl (hbelow.trans habove)
      rw [← hsame, hfound]

end Tree

namespace BindingLevels

/-- Levels that are apart from each other's error entries, and trees in which components of a sort
are kept only. -/
def keeping (levels : List Path) (sort : Blueprint → Bool)
    (separate : ∀ l ∈ levels, ∀ l' ∈ levels, ¬ (l.child errorName).segments <+: l'.segments) :
    BindingLevels where
  levels := {l | l ∈ levels}
  good t := t.Clear levels ∧ t.keepsOnly sort = true
  separate := separate
  clear h := h.1
  good_update h l hl _ hupdate := by
    refine ⟨h.1.update (fun l' hl' hprefix => ?_) hupdate, Tree.keepsOnly_update h.2 rfl hupdate⟩
    exact separate l hl l' hl' hprefix
  good_remove h l hl hremove :=
    ⟨h.1.remove (separate l hl) hremove, Tree.keepsOnly_remove h.2 hremove⟩

/-- A place that holds values of a kind, and to which such values can be written. -/
structure Slot (B : BindingLevels) (kept : Value → Prop) (p : Path) : Prop where
  held : ∀ {t v}, B.good t → t.resolve p = some v → kept v
  update : ∀ {t t' v}, B.good t → kept v → t.update p v = .ok t' → B.Keeps t t'

/-- A level with a binding point, and with entries of its own. -/
structure At (B : BindingLevels) (sort : Blueprint → Bool) (level : Path) : Prop where
  mem : level ∈ B.levels
  entry : ∀ {name : Name}, name ≠ errorName →
    B.Slot (·.keepsOnly sort = true) (level.child name)

/-- The entries of a level, its error entry apart, hold components of a sort only. -/
def Own (B : BindingLevels) (sort : Blueprint → Bool) (level : Path) : Prop :=
  ∀ name : Name, name ≠ errorName → B.Slot (·.keepsOnly sort = true) (level.child name)

theorem At.own {B : BindingLevels} {sort : Blueprint → Bool} {level : Path}
    (hat : B.At sort level) : B.Own sort level := fun _ => hat.entry

/-- Where nothing is, there is room for the map of a component. -/
def Room (B : BindingLevels) (p : Path) : Prop :=
  ∀ {t t'}, B.good t → t.resolve p = none → t.update p (.map .empty) = .ok t' → B.Keeps t t'

variable {separate : ∀ l ∈ levels, ∀ l' ∈ levels, ¬ (l.child errorName).segments <+: l'.segments}

/-- A place is a slot if no level is there or below, and no error entry is there or above. -/
theorem slot_keeping (hbelow : ∀ l ∈ levels, ¬ p.segments <+: l.segments)
    (habove : ∀ l ∈ levels, ¬ (l.child errorName).segments <+: p.segments) :
    (keeping levels sort separate).Slot (·.keepsOnly sort = true) p where
  held ht hv := Tree.keepsOnly_of_resolve ht.2 hv
  update := by
    intro t t' v ht hv hupdate
    refine ⟨⟨ht.1.update hbelow hupdate, Tree.keepsOnly_update ht.2 hv hupdate⟩, fun l hl => ?_⟩
    have hput := Tree.update_eq_ok_iff.mp hupdate
    exact hput.resolveFrom_of_not_prefix (Path.not_prefix_child (hbelow l hl) (habove l hl))
      (habove l hl)

/-- Below an empty map that was put where nothing was, there is as little as before. -/
theorem room_keeping (habove : ∀ l ∈ levels, ¬ (l.child errorName).segments <+: p.segments) :
    (keeping levels sort separate).Room p := by
  intro t t' ht hfree hupdate
  have hput := Tree.update_eq_ok_iff.mp hupdate
  refine ⟨⟨ht.1.update_empty hupdate, Tree.keepsOnly_update ht.2 rfl hupdate⟩, fun l hl => ?_⟩
  by_cases hprefix : p.segments <+: (l.child errorName).segments
  · obtain ⟨rest, hrest⟩ := hprefix
    have hnone : t.resolve (l.child errorName) = none := by
      rw [Tree.resolve, ← hrest, Tree.resolveFrom_append, ← Tree.resolve, hfree, Option.bind_none]
    have hbelow : t'.resolve (l.child errorName) = Tree.resolveFrom (.map .empty) rest := by
      rw [Tree.resolve, ← hrest, Tree.resolveFrom_append, hput.resolveFrom_self, Option.bind_some]
    rw [hnone, hbelow, Tree.resolveFrom_empty]
    rintro rfl
    exact habove l hl (by simp [← hrest])
  · exact hput.resolveFrom_of_not_prefix hprefix (habove l hl)

/-- Not above an error entry or at one. -/
theorem not_error_prefix_child (hlevel : level ∈ levels) (herror : name ≠ errorName)
    (separate : ∀ l ∈ levels, ∀ l' ∈ levels, ¬ (l.child errorName).segments <+: l'.segments) :
    ∀ l ∈ levels, ¬ (l.child errorName).segments <+: (level.child name).segments := by
  intro l hl hprefix
  rcases Path.prefix_or_eq_of_prefix_child hprefix with habove | heq
  · exact separate l hl level hlevel habove
  · exact herror (Path.eq_of_child_eq heq).2.symm

/-- The entries of a level below which there is no other one. -/
theorem at_keeping (hlevel : level ∈ levels)
    (hinnermost : ∀ l ∈ levels, level.segments <+: l.segments → l = level) :
    (keeping levels sort separate).At sort level where
  mem := hlevel
  entry := by
    intro name herror
    refine slot_keeping (fun l hl hprefix => ?_) (not_error_prefix_child hlevel herror separate)
    have heq := hinnermost l hl ((Path.prefix_child level name).trans hprefix)
    rw [heq] at hprefix
    exact Path.not_child_prefix_self hprefix

end BindingLevels

/-! ### Operations -/

variable {B : BindingLevels} {kept : Value → Prop} {α β : Type} {R : α → Prop} {R' : β → Prop}

namespace Program.Minds

theorem ite {c : Prop} [Decidable c] {p q : Program α} (hp : c → p.Minds B R)
    (hq : ¬ c → q.Minds B R) : (if c then p else q).Minds B R := by
  by_cases h : c
  · rw [if_pos h]
    exact hp h
  · rw [if_neg h]
    exact hq h

variable [Storable α]

theorem careful_set {v : Var α} {a : α}
    (hupdate : ∀ {t'}, t.update v.path (Storable.store a) = .ok t' → B.Keeps t t') :
    (v.set a).Careful B (fun _ => True) t := by
  refine .read ?_
  rw [done_bind]
  cases hresult : t.update v.path (Storable.store a) with
  | ok t' => exact .write (hupdate hresult) (.done trivial)
  | error e => exact .fault t _

theorem set {v : Var α} (hslot : B.Slot kept v.path) {a : α} (ha : kept (Storable.store a)) :
    (v.set a).Minds B fun _ => True :=
  fun _ ht => careful_set (hslot.update ht ha)

theorem modify {v : Var α} (hslot : B.Slot kept v.path) {f : α → α}
    (hf : ∀ a, kept (Storable.store (f a))) : (v.modify f).Minds B fun _ => True :=
  (Minds.get v).bind fun a _ => set hslot (hf a)

/-- What is read at a slot is of its kind. -/
theorem get_slot {v : Var α} (hslot : B.Slot kept v.path) :
    v.get.Minds B fun a => kept (Storable.store a) := by
  intro t ht
  refine .read ?_
  simp only [done_bind, pure_eq]
  cases hload : t.load α v.path with
  | ok a =>
    refine .done (hslot.held ht ?_)
    have hrun := Var.run_get none ⟨t, []⟩ v.path (α := α)
    rw [hload] at hrun
    exact Var.resolve_of_run_get hrun
  | error e => exact .fault t _

/-- Going on with a variable of the level, which is written only if it is not there. -/
theorem stateAt_bind {initial : α}
    (hupdate : ∀ {t t'}, B.good t → t.resolve (level.child name) = none →
      t.update (level.child name) (Storable.store initial) = .ok t' → B.Keeps t t')
    {f : Var α → Program β} (hf : (f ⟨level.child name⟩).Minds B R') :
    (stateAt level name initial >>= f).Minds B R' := by
  intro t ht
  refine Careful.bind (R := fun v => v = ⟨level.child name⟩) (.read ?_) ht ?_
  · change Careful B _ t (if (t.resolve (level.child name)).isNone then
      (Var.mk (level.child name)).set initial >>= fun _ => Pure.pure (Var.mk (level.child name))
      else Pure.pure (Var.mk (level.child name)))
    by_cases hnone : t.resolve (level.child name) = none
    · rw [hnone, Option.isNone_none, if_pos rfl]
      exact (careful_set (hupdate ht hnone)).bind ht fun _ _ => .pure rfl
    · rw [if_neg (by simpa using hnone)]
      exact .done rfl
  · rintro _ rfl
    exact hf

/-- Going on with a variable of the level whose place is a slot. -/
theorem stateAt_slot_bind (hslot : B.Slot kept (level.child name)) {initial : α}
    (hinitial : kept (Storable.store initial)) {f : Var α → Program β}
    (hf : (f ⟨level.child name⟩).Minds B R') : (stateAt level name initial >>= f).Minds B R' :=
  stateAt_bind (fun ht _ => hslot.update ht hinitial) hf

end Program.Minds

/-- The component below a level, with such a handler as all those of the sort have. -/
theorem Component.subcomponent_minds {P : Handler → Prop} {interpret : Blueprint → Component}
    (hroom : B.Room (level.child name)) (hown : B.Own sort (level.child name))
    (hinterpret : ∀ b : Blueprint, b.keepsOnly sort = true →
      (interpret b (level.child name)).Minds B fun scene => P scene.handler)
    {b : Blueprint} (hb : b.keepsOnly sort = true) :
    (subcomponent interpret level name b).Minds B fun scene => P scene.handler := by
  have hkept := hown componentName (by decide)
  refine .stateAt_bind (fun ht hnone => hroom ht hnone) ?_
  refine .stateAt_slot_bind hkept (show (Value.component b).keepsOnly sort = true from hb) ?_
  exact (Program.Minds.get_slot hkept).bind fun b hb => Component.invoke_minds (hinterpret b hb)

/-! ### Code area -/

variable {h list : Handler}

namespace CodeArea

theorem edit_minds (hown : B.Own sort level) (f : CodeBuffer → Except Fault CodeBuffer) :
    (edit (buffer level) f).Minds B fun _ => True := by
  have hbuffer := hown bufferName (by decide)
  exact (Minds.get _).bind fun b _ => (Minds.ofExcept (f b)).bind fun _ _ => .set hbuffer rfl

theorem coreHandler_careful (hown : B.Own sort level) : (coreHandler (buffer level)).Careful B := by
  intro event
  unfold coreHandler
  cases event.key? with
  | none => exact .pure trivial
  | some key =>
    dsimp only
    refine .ite (fun _ => (edit_minds hown _).bind fun _ _ => .pure trivial) fun _ => ?_
    cases key.literal? with
    | none => exact .pure trivial
    | some c =>
      exact .ite (fun _ => (edit_minds hown _).bind fun _ _ => .pure trivial) fun _ => .pure trivial

theorem core_careful (hown : B.Own sort level) : core.Careful B level := by
  refine .stateAt_slot_bind (hown _ (by decide)) rfl ?_
  refine .stateAt_slot_bind (hown _ (by decide)) rfl ?_
  refine .stateAt_slot_bind (hown _ (by decide)) rfl ?_
  refine .stateAt_slot_bind (hown _ (by decide)) rfl ?_
  refine .stateAt_slot_bind (hown _ (by decide)) rfl ?_
  refine (Minds.get _).bind fun b _ => ?_
  refine (Minds.get _).bind fun overlay _ => ?_
  refine (Minds.get _).bind fun highlighter _ => ?_
  refine (Minds.ofExcept _).bind fun shown _ => ?_
  refine (Minds.get _).bind fun prompt _ => ?_
  refine (Minds.get _).bind fun rightPrompt _ => ?_
  exact .pure (coreHandler_careful hown)

theorem expansion_minds (t : Tables) (after : CodeBuffer) (streak : String) (c : Char) :
    (expansion t after streak c).Minds B fun _ => True := by
  refine (Minds.get _).bind fun simple _ => ?_
  refine (Minds.ofExcept _).bind fun expanded _ => ?_
  cases expanded with
  | some b => exact .pure trivial
  | none =>
    refine (Minds.get _).bind fun command _ => ?_
    cases command.expandCommand after streak c with
    | some b => exact .pure trivial
    | none => exact (Minds.get _).bind fun smallWord _ => .ofExcept _

theorem inserted?_minds (b : Var CodeBuffer) (before : CodeBuffer) (key : Key) (action : Action) :
    (inserted? b before key action).Minds B fun _ => True := by
  unfold inserted?
  cases key.literal? with
  | none => exact .pure trivial
  | some c =>
    refine .ite (fun _ => ?_) fun _ => .pure trivial
    refine (Minds.ofExcept _).bind fun expected _ => ?_
    refine (Minds.get _).bind fun b _ => ?_
    exact .ite (fun _ => .pure trivial) fun _ => .pure trivial

theorem abbreviationHandler_careful (hown : B.Own sort level) (hinner : h.Careful B) :
    (abbreviationHandler (buffer level) (tables level) h).Careful B := by
  have hbuffer := hown bufferName (by decide)
  have hstreak := hown streakName (by decide)
  intro event
  cases event with
  | paste isStart => exact hinner (.paste isStart)
  | resize rows columns => exact hinner (.resize rows columns)
  | key key =>
    refine (Minds.get _).bind fun before _ => ?_
    refine (hinner (.key key)).bind fun action _ => ?_
    refine (inserted?_minds _ before key action).bind fun inserted _ => ?_
    cases inserted with
    | none => exact (Minds.set hstreak rfl).bind fun _ _ => .pure trivial
    | some inserted =>
      -- the streak goes on, or its abbreviation is expanded
      refine Minds.bind (R := fun _ => True) ?_ fun _ _ => .pure trivial
      refine (Minds.get _).bind fun streak _ => ?_
      refine (Minds.ofExcept _).bind fun sides _ => ?_
      refine (expansion_minds _ inserted.2 _ inserted.1).bind fun expanded _ => ?_
      cases expanded with
      | some b => exact (Minds.set hbuffer rfl).bind fun _ _ => .set hstreak rfl
      | none => exact .set hstreak rfl

theorem withAbbreviations_careful (hown : B.Own sort level) : withAbbreviations.Careful B level := by
  refine (core_careful hown).bind fun scene hscene => ?_
  refine .stateAt_slot_bind (hown _ (by decide)) rfl ?_
  refine .stateAt_slot_bind (hown _ (by decide)) rfl ?_
  refine .stateAt_slot_bind (hown _ (by decide)) rfl ?_
  refine .stateAt_slot_bind (hown _ (by decide)) rfl ?_
  exact .pure (abbreviationHandler_careful hown hscene)

theorem pasteHandler_careful (hown : B.Own sort level) (hinner : h.Careful B) :
    (pasteHandler (buffer level) (pastes level) h).Careful B := by
  have hpasting := hown pastingName (by decide)
  have hpasted := hown pastedName (by decide)
  intro event
  cases event with
  | paste isStart =>
    cases isStart with
    | true =>
      exact (Minds.set hpasting rfl).bind fun _ _ =>
        (Minds.set hpasted rfl).bind fun _ _ => .pure trivial
    | false =>
      refine Minds.bind (R := fun _ => True) ?_ fun _ _ => .pure trivial
      refine (Minds.get _).bind fun text _ => ?_
      refine (Minds.get _).bind fun quote _ => ?_
      refine (edit_minds hown _).bind fun _ _ => ?_
      exact (Minds.set hpasting rfl).bind fun _ _ => .set hpasted rfl
  | key key =>
    refine (Minds.get _).bind fun pasting _ => ?_
    refine .ite (fun _ => ?_) fun _ => hinner (.key key)
    cases key.literal? with
    | none => exact .pure trivial
    | some c => exact (Minds.modify hpasted fun _ => rfl).bind fun _ _ => .pure trivial
  | resize rows columns => exact hinner (.resize rows columns)

end CodeArea

theorem codeArea_minds {P : Handler → Prop} (hown : B.Own sort level)
    (hbinding : ∀ h : Handler, h.Careful B → P (withBinding level CodeArea.tag h)) :
    (codeArea level).Minds B fun scene => P scene.handler := by
  refine (CodeArea.withAbbreviations_careful hown).bind fun scene hscene => ?_
  refine .stateAt_slot_bind (hown _ (by decide)) rfl ?_
  refine .stateAt_slot_bind (hown _ (by decide)) rfl ?_
  refine .stateAt_slot_bind (hown _ (by decide)) rfl ?_
  exact .pure (hbinding _ (CodeArea.pasteHandler_careful hown hscene))

theorem codeArea_careful (hat : B.At sort level) : codeArea.Careful B level :=
  codeArea_minds hat.own fun _ hhandler => hhandler.withBinding hat.mem CodeArea.tag

/-! ### List box -/

theorem ListBox.handler_careful (hown : B.Own sort level) :
    (ListBox.handler (items level) (selected level)).Careful B := by
  have hselected := hown selectedName (by decide)
  intro event
  unfold ListBox.handler
  cases event.key? with
  | none => exact .pure trivial
  | some key =>
    refine (Minds.get _).bind fun items _ => ?_
    refine (Minds.get _).bind fun selected _ => ?_
    refine .ite (fun _ => (Minds.set hselected rfl).bind fun _ _ => .pure trivial) fun _ => ?_
    exact .ite (fun _ => (Minds.set hselected rfl).bind fun _ _ => .pure trivial)
      fun _ => .pure trivial

theorem listBox_minds {P : Handler → Prop} (hown : B.Own sort level)
    (hbinding : ∀ h : Handler, h.Careful B → P (withBinding level ListBox.tag h)) :
    (listBox level).Minds B fun scene => P scene.handler := by
  have hhandler := hbinding _ (ListBox.handler_careful hown)
  refine .stateAt_slot_bind (hown _ (by decide)) rfl ?_
  refine .stateAt_slot_bind (hown _ (by decide)) rfl ?_
  refine .stateAt_slot_bind (hown _ (by decide)) rfl ?_
  refine (Minds.get _).bind fun l _ => ?_
  cases l with
  | none => exact .pure hhandler
  | some l => exact (Minds.get _).bind fun selected _ => .pure hhandler

theorem listBox_careful (hat : B.At sort level) : listBox.Careful B level :=
  listBox_minds hat.own fun _ hhandler => hhandler.withBinding hat.mem ListBox.tag

/-! ### Combo box -/

namespace ComboBox

/-- A level with a binding point, entries of its own, and the levels of the filter and of the list
below. -/
structure At (B : BindingLevels) (sort : Blueprint → Bool) (level : Path) : Prop where
  mem : level ∈ B.levels
  generator : B.Slot (·.keepsOnly sort = true) (level.child generatorName)
  lastFilter : B.Slot (·.keepsOnly sort = true) (level.child lastFilterName)
  filter : B.At sort (level.child filterName)
  list : B.At sort (level.child listName)
  filterRoom : B.Room (level.child filterName)
  listRoom : B.Room (level.child listName)

theorem regenerate_minds
    (hlastFilter : B.Slot (·.keepsOnly sort = true) (level.child lastFilterName))
    (hlist : B.Own sort (level.child listName)) (content : String) :
    (regenerate (.at level) content).Minds B fun _ => True := by
  have hitems := hlist ListBox.itemsName (by decide)
  have hselected := hlist ListBox.selectedName (by decide)
  refine (Minds.get _).bind fun generator _ => ?_
  refine (Minds.set hitems rfl).bind fun _ _ => ?_
  refine (Minds.set hselected rfl).bind fun _ _ => ?_
  exact .set hlastFilter rfl

/-- What comes after the filter has dealt with an event. -/
theorem follow_minds
    (hlastFilter : B.Slot (·.keepsOnly sort = true) (level.child lastFilterName))
    (hlist : B.Own sort (level.child listName)) (action : Action) :
    (do let content := (← (Vars.at level).buffer.get).content
        if content ≠ (← (Vars.at level).lastFilter.get) then regenerate (.at level) content
        return action : Program Action).Minds B fun _ => True := by
  refine (Minds.get _).bind fun b _ => ?_
  refine (Minds.get _).bind fun lastFilter _ => ?_
  refine .ite (fun _ => ?_) fun _ => .pure trivial
  exact (regenerate_minds hlastFilter hlist b.content).bind fun _ _ => .pure trivial

theorem handler_careful (hat : At B sort level) (hfilter : h.Careful B) (hlist : list.Careful B) :
    (handler (.at level) h list).Careful B := by
  intro event
  refine (hfilter event).bind fun action _ => ?_
  exact .ite (fun _ => hlist event) fun _ => follow_minds hat.lastFilter hat.list.own action

theorem firstList_minds
    (hlastFilter : B.Slot (·.keepsOnly sort = true) (level.child lastFilterName))
    (hlist : B.Own sort (level.child listName)) :
    (firstList (.at level)).Minds B fun _ => True := by
  refine (Minds.value? _).bind fun last _ => ?_
  refine .ite (fun _ => ?_) fun _ => .pure trivial
  refine Minds.bind (R := fun _ => True) ?_
    fun content _ => regenerate_minds hlastFilter hlist content
  refine (Minds.tryGet _).bind fun r _ => ?_
  cases r with
  | ok b => exact .pure trivial
  | error e => exact .pure trivial

/-- The scene of a combo box, with its own handler around those of the filter and of the list. -/
theorem scene_minds {P Q : Handler → Prop} {interpret : Blueprint → Component}
    (hgenerator : B.Slot (·.keepsOnly sort = true) (level.child generatorName))
    (hlastFilter : B.Slot (·.keepsOnly sort = true) (level.child lastFilterName))
    (hlist : B.Own sort (level.child listName))
    (hfilterScene : (Component.subcomponent interpret level filterName .codeArea).Minds B
      fun scene => P scene.handler)
    (hlistScene : (Component.subcomponent interpret level listName .listBox).Minds B
      fun scene => P scene.handler)
    (hbinding : ∀ filter list : Handler, P filter → P list →
      Q (withBinding level tag (handler (.at level) filter list))) :
    (comboBox interpret level).Minds B fun scene => Q scene.handler := by
  rw [comboBox_eq]
  refine .stateAt_slot_bind hgenerator rfl ?_
  refine (firstList_minds hlastFilter hlist).bind fun _ _ => ?_
  refine hfilterScene.bind fun filter hfilter => ?_
  refine hlistScene.bind fun list hlist => ?_
  exact .pure (hbinding _ _ hfilter hlist)

/-- **A combo box is careful** if the components are that may be kept in it. -/
theorem careful (hat : At B sort level) {interpret : Blueprint → Component}
    (hinterpret : ∀ b : Blueprint, b.keepsOnly sort = true → ∀ level, B.At sort level →
      (interpret b).Careful B level)
    (hcodeArea : Blueprint.codeArea.keepsOnly sort = true)
    (hlistBox : Blueprint.listBox.keepsOnly sort = true) :
    (comboBox interpret).Careful B level := by
  refine scene_minds hat.generator hat.lastFilter hat.list.own
    (Component.subcomponent_minds hat.filterRoom hat.filter.own
      (fun b hb => hinterpret b hb _ hat.filter) hcodeArea)
    (Component.subcomponent_minds hat.listRoom hat.list.own
      (fun b hb => hinterpret b hb _ hat.list) hlistBox) fun filter list hfilter hlist => ?_
  exact (handler_careful hat hfilter hlist).withBinding hat.mem tag

end ComboBox

/-! ### Hooks made of rules -/

namespace Hook

variable {handler : Event → UI Action} {s s' : Session}

theorem Does.bind {c : UI α} {f : α → UI β} (hc : Hook.Does B handler s (c.run s').2)
    (hf : ∀ a s', Hook.Does B handler s s' → Hook.Does B handler s ((f a).run s').2) :
    Hook.Does B handler s ((c >>= f).run s').2 := by
  rcases hrun : c.run s' with ⟨fault | a, s''⟩
  · rw [TerminalUI.run_bind_of_error hrun]
    rwa [hrun] at hc
  · rw [TerminalUI.run_bind_of_ok hrun]
    rw [hrun] at hc
    exact hf a s'' hc

theorem careful_transparent : Hook.transparent.Careful B :=
  fun _ _ event _ _ s => Does.bind (.call (.refl s) event) fun _ _ h => h

end Hook

/-- What the effect of a rule writes is no error entry's, at any of the levels. -/
def RuleEffect.Harmless (B : BindingLevels) (effect : RuleEffect) : Prop :=
  ∀ path value, effect = .write path value → ∀ level ∈ B.levels, ∀ {t t'}, B.good t →
    t.update (level ++ path) value = .ok t' → B.Keeps t t'

theorem RuleEffect.act_careful {effect : RuleEffect} (h : effect.Harmless B) :
    Hook.Careful B effect.act := by
  intro level hlevel event tag handler s
  cases effect with
  | fail e => exact .refl s
  | answer action => exact .refl s
  | twice =>
    refine Hook.Does.bind (.call (.refl s) event) fun _ s₁ h₁ => ?_
    exact Hook.Does.bind (.call h₁ event) fun _ _ h₂ => h₂
  | submit =>
    refine Hook.Does.bind (c := (ListBox.items level).tryGet.perform) (.refl s) fun r s₁ h₁ => ?_
    cases r with
    | error e => exact h₁
    | ok items =>
      refine Hook.Does.bind (c := (ListBox.selected level).tryGet.perform) h₁ fun r s₂ h₂ => ?_
      cases r with
      | error e => exact h₂
      | ok selected =>
        refine Hook.Does.bind (c := Program.perform
          (Var.mk (α := Submit) (level.child ListBox.submitName)).tryGet) h₂ fun r s₃ h₃ => ?_
        cases r with
        | error e => exact h₃
        | ok callback =>
          -- a choice is recorded, which is no hook call
          refine Hook.Does.bind ?_ fun _ _ h₄ => h₄
          cases callback with
          | silent => exact h₃
          | recorded => exact .own h₃ (fun hgood => ⟨hgood, fun _ _ => rfl⟩) rfl
  | write path value =>
    simp only [RuleEffect.act]
    rw [TerminalUI.run_bind_of_ok (UI.run_tree s)]
    cases hupdate : s.tree.update (level ++ path) value with
    | error e => exact .refl s
    | ok t =>
      have hwrite : Hook.Does B handler s { s with tree := t } :=
        .own (.refl s) (fun hgood => h path value rfl level hlevel hgood hupdate) rfl
      exact Hook.Does.bind (c := UI.setTree t) hwrite fun _ _ h₁ =>
        Hook.Does.bind (.call h₁ event) fun _ _ h₂ => h₂

/-- **Hooks made of rules are careful** if their rules write no error entries, and the hook is for
which they make way. -/
theorem Hook.careful_ofRules {rules : List Rule} {otherwise : Hook}
    (hrules : ∀ r ∈ rules, r.effect.Harmless B) (hotherwise : otherwise.Careful B) :
    (Hook.ofRules rules otherwise).Careful B := by
  intro level hlevel event tag handler s
  rw [Hook.ofRules]
  cases hfind : rules.find? (·.applies event tag) with
  | some r =>
    exact RuleEffect.act_careful (hrules r (List.mem_of_find?_eq_some hfind)) level hlevel _ _ _ _
  | none => exact hotherwise level hlevel event tag handler s

/-! ### The levels of a combo box -/

namespace ComboBox

/-- The levels of a combo box: its own, that of its filter and that of its list. -/
def levelsAt (level : Path) : List Path := [level, level.child filterName, level.child listName]

/-- What comes after the level of a combo box in the paths to its levels. -/
def rests : List (List String) := [[], [filterName], [listName]]

theorem exists_rest (hl : l ∈ levelsAt level) :
    ∃ rest ∈ rests, l.segments = level.segments ++ rest := by
  simp only [levelsAt, List.mem_cons, List.not_mem_nil, or_false] at hl
  rcases hl with rfl | rfl | rfl
  · exact ⟨[], by simp [rests], (List.append_nil _).symm⟩
  · exact ⟨[filterName], by simp [rests], Path.segments_child level _⟩
  · exact ⟨[listName], by simp [rests], Path.segments_child level _⟩

theorem separate_levels (level : Path) :
    ∀ l ∈ levelsAt level, ∀ l' ∈ levelsAt level, ¬ (l.child errorName).segments <+: l'.segments := by
  intro l hl l' hl' hprefix
  obtain ⟨rest, hrest, heq⟩ := exists_rest hl
  obtain ⟨rest', hrest', heq'⟩ := exists_rest hl'
  have hfree : ∀ rest ∈ rests, ∀ rest' ∈ rests, ¬ rest ++ [errorName.text] <+: rest' := by decide
  rw [Path.segments_child, heq, heq', List.append_assoc, List.prefix_append_right_inj] at hprefix
  exact hfree rest hrest rest' hrest' hprefix

theorem eq_of_entry_above {l : Path} (hl : l ∈ levelsAt level)
    (habove : (level.child name).segments <+: l.segments) :
    (name = filterName ∨ name = listName) ∧ l = level.child name := by
  obtain ⟨rest, hrest, heq⟩ := exists_rest hl
  rw [Path.segments_child, heq, List.prefix_append_right_inj] at habove
  simp only [rests, List.mem_cons, List.not_mem_nil, or_false] at hrest
  rcases hrest with rfl | rfl | rfl
  · exact absurd (List.prefix_nil.mp habove) (List.cons_ne_nil _ _)
  · obtain rfl : name = filterName := Name.ext (by simpa using habove)
    exact ⟨.inl rfl, Path.ext (heq.trans (Path.segments_child level _).symm)⟩
  · obtain rfl : name = listName := Name.ext (by simpa using habove)
    exact ⟨.inr rfl, Path.ext (heq.trans (Path.segments_child level _).symm)⟩

theorem at_keeping (level : Path) :
    At (BindingLevels.keeping (levelsAt level) sort (separate_levels level)) sort level := by
  have hlevel : level ∈ levelsAt level := List.mem_cons_self
  have habove {name : Name} (herror : name ≠ errorName) :
      ∀ l ∈ levelsAt level, ¬ (l.child errorName).segments <+: (level.child name).segments :=
    BindingLevels.not_error_prefix_child hlevel herror (separate_levels level)
  have hown {name : Name} (herror : name ≠ errorName)
      (hinner : ¬ (name = filterName ∨ name = listName)) :
      (BindingLevels.keeping (levelsAt level) sort (separate_levels level)).Slot
        (·.keepsOnly sort = true) (level.child name) :=
    BindingLevels.slot_keeping (fun l hl hprefix => hinner (eq_of_entry_above hl hprefix).1)
      (habove herror)
  have hinnermost {name : Name} : ∀ l ∈ levelsAt level,
      (level.child name).segments <+: l.segments → l = level.child name :=
    fun l hl hprefix => (eq_of_entry_above hl hprefix).2
  exact {
    mem := hlevel
    generator := hown (by decide) (by decide)
    lastFilter := hown (by decide) (by decide)
    filter := BindingLevels.at_keeping (by simp [levelsAt]) hinnermost
    list := BindingLevels.at_keeping (by simp [levelsAt]) hinnermost
    filterRoom := BindingLevels.room_keeping (habove (by decide))
    listRoom := BindingLevels.room_keeping (habove (by decide)) }

/-- Code areas and list boxes. -/
def isPart : Blueprint → Bool
  | .codeArea | .listBox => true
  | _ => false

/-- The trees of a combo box that keeps a code area and a list box. -/
def partLevels (level : Path) : BindingLevels :=
  .keeping (levelsAt level) isPart (separate_levels level)

theorem careful_start (level : Path) :
    Blueprint.comboBox.start.Careful (partLevels level) level := by
  refine careful (at_keeping level) (fun b hb inner hat => ?_) rfl rfl
  have hpart := Blueprint.sort_of_keepsOnly hb
  cases b with
  | codeArea => exact codeArea_careful hat
  | listBox => exact listBox_careful hat
  | _ => cases hpart

end ComboBox

/-- A combo box whose filter knows no command `!`: the message is there until a key succeeds. -/
theorem Embedded.messages_follow_outcomes_combo_box :
    let hook : Hook := .ofRules [{
      tag := some CodeArea.tag, key := some (.typed '!'),
      effect := .fail (.binding "no such command") }] .transparent
    let B := ComboBox.partLevels .root
    let start := Embedded.start ⟨Blueprint.comboBox.start, some hook.journaled⟩ .empty
    let message (events : List Event) : Option (Option String) := do
      let w ← start.toOption
      let (_, w) ← (w.dispatchAll events).toOption
      return (w.session.tree.load String (.ofList ["filter", "-error"])).toOption
    Blueprint.comboBox.start.Careful B .root ∧ hook.Careful B ∧ B.good .empty ∧
      (∀ level ∈ B.levels, Tree.empty.resolve (level.child errorName) = none) ∧
      (∀ w events actions w', start = .ok w → w.dispatchAll events = .ok (actions, w') →
        B.Tracks w'.session) ∧
      message [.key (.typed 'a'), .key (.typed '!')] = some (some "binding: no such command") ∧
      message [.key (.typed '!'), .key (.typed 'a')] = some none := by
  intro hook B start message
  have hc : Blueprint.comboBox.start.Careful B .root := ComboBox.careful_start .root
  have hhook : hook.Careful B := by
    refine Hook.careful_ofRules (fun r hr => ?_) Hook.careful_transparent
    rw [List.mem_singleton.mp hr]
    rintro path value ⟨⟩
  have ht : B.good .empty := ⟨Tree.clear_empty _, rfl⟩
  have hnone : ∀ level ∈ B.levels, Tree.empty.resolve (level.child errorName) = none :=
    fun level _ => Tree.resolve_child_empty level _
  exact ⟨hc, hhook, ht, hnone, (messages_follow_outcomes hc hhook ht hnone).1, by decide +kernel,
    by decide +kernel⟩

end TerminalUI
