import TerminalUI.Proofs.Program.Seeding
import TerminalUI.Proofs.Widget.Inner
import TerminalUI.Demo.Button

/-!
# Buttons of a form

A form has buttons below its level. `Tree.HasButton` says that a tree holds a button with a label
and with what a press does, and `Tree.OffersButton` that a scene of the form makes it. A button does
for Space and Enter what a press does, in whatever tree the form is in then, and nothing for any
other event (`Tree.HasButton.run_handler`).
-/

namespace TerminalUI

/-- The event presses a button. -/
def Event.Presses (event : Event) : Prop :=
  event = .key (.bare (.char ' ')) ∨ event = .key (.bare .enter)

instance (event : Event) : Decidable event.Presses :=
  inferInstanceAs (Decidable (_ ∨ _))

namespace Button

/-- What a press does. -/
def press (level : Path) : Var Press := ⟨level.child pressName⟩

theorem presses_iff {event : Event} :
    (event.isBare (.char ' ') || event.isBare .enter) = true ↔ event.Presses := by
  rw [Bool.or_eq_true, Event.isBare_iff, Event.isBare_iff, Event.Presses]

end Button

namespace Tree

variable {hook : Option Hook} {level : Path} {name : Name} {label : String} {press : Press}
  {t t' m : Tree} {journal : List JournalEntry}

/-- Below the level, the tree holds a button with the label, and what a press does. -/
structure HasButton (level : Path) (name : Name) (label : String) (press : Press) (t : Tree) :
    Prop where
  resolve_label : t.resolve ((level.child name).child Button.labelName) = some (.string label)
  resolve_press : t.resolve (Button.press (level.child name)).path = some (.press press)
  accepts : t.AcceptsAt (level.child name) (Button.labelled label press)

/-- Below the level, a scene makes a button with the label, and what a press does. -/
def OffersButton (level : Path) (name : Name) (label : String) (press : Press) (t : Tree) : Prop :=
  ∃ m, t.HasMap (level.child name) m ∧ m.Accepts (Button.labelled label press) ∧
    (m.get? Button.labelName = none ∨ m.get? Button.labelName = some (.string label)) ∧
    (m.get? Button.pressName = none ∨ m.get? Button.pressName = some (.press press))

theorem HasButton.congr (h : HasButton level name label press t)
    (hget : ∀ key : Name, key ≠ errorName →
      t'.resolve ((level.child name).child key) = t.resolve ((level.child name).child key)) :
    HasButton level name label press t' where
  resolve_label := (hget _ (by decide)).trans h.resolve_label
  resolve_press := (hget _ (by decide)).trans h.resolve_press
  accepts := by
    rw [AcceptsAt, hget _ (by decide)]
    exact h.accepts

theorem HasButton.beside {names : Set Name} (h : HasButton level name label press t)
    (hsame : SameBeside level names t t') (hfree : name ∉ names) :
    HasButton level name label press t' :=
  h.congr fun key _ => hsame.resolve_grandchild hfree key

theorem HasButton.offers (h : HasButton level name label press t) :
    OffersButton level name label press t := by
  obtain ⟨m, hm⟩ := exists_map_of_child h.resolve_label
  refine ⟨m, .inl hm, h.accepts.accepts (.inl hm), .inr ?_, .inr ?_⟩
  · rw [← resolve_child hm, h.resolve_label]
  · exact (resolve_child hm).symm.trans h.resolve_press

/-- Where nothing is, a scene makes the button. -/
theorem offersButton_of_eq_none (h : t.resolve (level.child name) = none) (label : String)
    (press : Press) : OffersButton level name label press t :=
  ⟨.empty, .inr ⟨h, rfl⟩, .inl rfl, .inl rfl, .inl rfl⟩

theorem OffersButton.beside {names : Set Name} (h : OffersButton level name label press t)
    (hsame : SameBeside level names t t') (hfree : name ∉ names) :
    OffersButton level name label press t' := by
  simp only [OffersButton, HasMap, hsame.resolve_child hfree]
  exact h

/-- The handler of a button. -/
def buttonHandler (level : Path) : Handler :=
  withBinding level Button.tag (Button.handler (Button.press level))

/-- What the blueprints of labelled buttons stand for. -/
def InterpretsButtons (interpret : Blueprint → Component) : Prop :=
  ∀ label press, interpret (Button.labelled label press) =
    (button.withStates [(.ofString Button.pressName, .press press)]).withStates
      [(.ofString Button.labelName, .string label)]

theorem interpretsButtons_component (depth : Nat) :
    InterpretsButtons (Blueprint.component (depth + 3)) := fun _ _ => rfl

variable (hook) (level) in
/-- A button is shown with its label. -/
theorem leads_button (hlabel : m.get? Button.labelName = some (.string label))
    (hpress : m.get? Button.pressName = some (.press press)) :
    ∃ view, Program.Leads hook level (button level) m ⟨view, buttonHandler level⟩ m := by
  have hentry {α : Type} [Storable α] {name : Name} (hthere : (m.get? name).isSome) (initial : α) :
      Program.Leads hook level (stateAt level name initial) m ⟨level.child name⟩ m := by
    have hleads : Program.Leads hook level (stateAt level name initial) m ⟨level.child name⟩
        (m.withDefault name (Storable.store initial)) := Var.leads_stateAt initial
    rwa [withDefault_of_isSome hthere] at hleads
  have hpress' : (m.get? Button.pressName).isSome := by rw [hpress, Option.isSome_some]
  have hlabel' : (m.get? Button.labelName).isSome := by rw [hlabel, Option.isSome_some]
  exact ⟨_, .bind (hentry hlabel' _) (.bind (hentry hpress' _)
    (.bind (Var.leads_get hlabel) (.pure _)))⟩

variable (hook) (journal) in
/-- A scene of the form makes the button. -/
theorem OffersButton.exists_run_subcomponent {interpret : Blueprint → Component}
    (hinterpret : InterpretsButtons interpret) (h : OffersButton level name label press t)
    (hlevel : t.resolve level = some (.map m)) :
    ∃ view t', ((Component.subcomponent interpret level name (Button.labelled label press)).run
        hook).run ⟨t, journal⟩ = (.ok ⟨view, buttonHandler (level.child name)⟩, ⟨t', journal⟩) ∧
      HasButton level name label press t' ∧ SameBeside level {name} t t' := by
  obtain ⟨f, hf, haccepts, hlabel, hpress⟩ := h
  -- the map of the button, with all that is put there before it runs
  let f' := ((f.withDefault componentName (.component (Button.labelled label press))).withDefault
    Button.labelName (.string label)).withDefault Button.pressName (.press press)
  have hlabel' : f'.get? Button.labelName = some (.string label) := by
    simp only [f', get?_withDefault, if_neg (show Button.labelName.text ≠ componentName by decide),
      if_neg (show Button.labelName.text ≠ Button.pressName by decide), if_pos]
    rcases hlabel with hlabel | hlabel <;> rw [hlabel] <;> rfl
  have hpress' : f'.get? Button.pressName = some (.press press) := by
    simp only [f', get?_withDefault, if_neg (show Button.pressName.text ≠ componentName by decide),
      if_neg (show Button.pressName.text ≠ Button.labelName by decide), if_pos]
    rcases hpress with hpress | hpress <;> rw [hpress] <;> rfl
  have haccepts' : f'.Accepts (Button.labelled label press) := by
    simp only [f', Accepts, get?_withDefault,
      if_neg (show componentName.text ≠ Button.pressName by decide),
      if_neg (show componentName.text ≠ Button.labelName by decide), Option.or_none, if_pos]
    exact .inr (by simpa only [get?_withDefault, if_pos] using haccepts.get?_withDefault)
  obtain ⟨view, hbutton⟩ := leads_button hook (level.child name) hlabel' hpress'
  obtain ⟨view, hinvoke⟩ := Component.exists_leads_invoke hbutton
  have hinvoke' := Component.leads_invoke_withState Button.labelName (by decide) _
    (Component.leads_invoke_withState Button.pressName (by decide) _ hinvoke)
  rw [← hinterpret] at hinvoke'
  obtain ⟨t', hrun, hf', hsame⟩ :=
    Component.exists_run_subcomponent journal hlevel hf haccepts hinvoke'
  refine ⟨view, t', hrun, ⟨?_, ?_, ?_⟩, hsame⟩
  · exact (resolve_child hf').trans hlabel'
  · exact (resolve_child hf').trans hpress'
  · rw [AcceptsAt, resolve_child hf']
    exact haccepts'

variable (hook) (journal) in
/-- What a button does with an event, in front of its binding point. -/
theorem HasButton.run_handler (h : HasButton level name label press t) (event : Event) :
    ((Button.handler (Button.press (level.child name)) event).run hook).run ⟨t, journal⟩ =
      ((if event.Presses then press.run else return .unused).run hook).run ⟨t, journal⟩ := by
  rw [Button.handler]
  by_cases hpresses : event.Presses
  · rw [if_pos (Button.presses_iff.2 hpresses), if_pos hpresses]
    exact Program.run_bind_of_ok (Var.run_get_of_resolve hook h.resolve_press) _
  · rw [if_neg (mt Button.presses_iff.1 hpresses), if_neg hpresses]

end Tree

end TerminalUI
