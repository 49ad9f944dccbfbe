import TerminalUI.Proofs.CodeArea.Entries
import TerminalUI.Proofs.Program.Alike
import TerminalUI.Widget.ComboBox

/-!
# Widgets at other levels

A code area and a list box read and write the entries of their level and nothing else, so they make
the same scene wherever these entries correspond. A combo box has two components below its level,
and is portable if what is kept there is. For a combo box there is a second statement, that asks for
components of a sort only where they are run (`ComboBox.alike`).
-/

namespace TerminalUI

open Correspondence

variable {C : Correspondence} {sort : Blueprint → Bool} {kept : Value → Prop} {level level' : Path}

/-! ### Code area -/

namespace CodeArea

variable {h h' : Handler}

theorem edit_alike (hat : C.At sort level level') (f : CodeBuffer → Except Fault CodeBuffer) :
    (edit (buffer level) f).Alike C Eq (edit (buffer level') f) := by
  have hbuffer := hat.entry bufferName
  exact hbuffer.get.bind_eq fun b => (Program.Alike.ofExcept (f b)).bind_eq fun _ => hbuffer.set rfl

theorem coreHandler_alike (hat : C.At sort level level') :
    (coreHandler (buffer level)).Alike C (coreHandler (buffer level')) := by
  intro event
  unfold coreHandler
  cases event.key? with
  | none => exact .pure rfl
  | some key =>
    dsimp only
    refine .ite (fun _ => (edit_alike hat _).bind_eq fun _ => .pure rfl) fun _ => ?_
    cases key.literal? with
    | none => exact .pure rfl
    | some c =>
      exact .ite (fun _ => (edit_alike hat _).bind_eq fun _ => .pure rfl) fun _ => .pure rfl

theorem core_portable : C.Portable sort core := by
  intro level level' hat
  have hprompt := hat.entry promptName
  have hrightPrompt := hat.entry rightPromptName
  have hbuffer := hat.entry bufferName
  have hpending := hat.entry pendingName
  have hhighlighter := hat.entry highlighterName
  refine hprompt.stateAt_bind rfl ?_
  refine hrightPrompt.stateAt_bind rfl ?_
  refine hbuffer.stateAt_bind rfl ?_
  refine hpending.stateAt_bind rfl ?_
  refine hhighlighter.stateAt_bind rfl ?_
  refine hbuffer.get.bind_eq fun b => ?_
  refine hpending.get.bind_eq fun overlay => ?_
  refine hhighlighter.get.bind_eq fun highlighter => ?_
  refine (Program.Alike.ofExcept _).bind_eq fun shown => ?_
  refine hprompt.get.bind_eq fun prompt => ?_
  refine hrightPrompt.get.bind_eq fun rightPrompt => ?_
  exact .pure ⟨rfl, coreHandler_alike hat⟩

theorem expansion_alike (hat : C.At sort level level') (after : CodeBuffer) (streak : String)
    (c : Char) : (expansion (tables level) after streak c).Alike C Eq
      (expansion (tables level') after streak c) := by
  have hsimple := hat.entry simpleName
  have hcommand := hat.entry commandName
  have hsmallWord := hat.entry smallWordName
  refine hsimple.get.bind_eq fun simple => ?_
  refine (Program.Alike.ofExcept _).bind_eq fun expanded => ?_
  cases expanded with
  | some b => exact .pure rfl
  | none =>
    refine hcommand.get.bind_eq fun command => ?_
    cases command.expandCommand after streak c with
    | some b => exact .pure rfl
    | none => exact hsmallWord.get.bind_eq fun smallWord => .ofExcept _

theorem inserted?_alike (hat : C.At sort level level') (before : CodeBuffer) (key : Key)
    (action : Action) : (inserted? (buffer level) before key action).Alike C Eq
      (inserted? (buffer level') before key action) := by
  have hbuffer := hat.entry bufferName
  unfold inserted?
  cases key.literal? with
  | none => exact .pure rfl
  | some c =>
    refine .ite (fun _ => ?_) fun _ => .pure rfl
    refine (Program.Alike.ofExcept _).bind_eq fun expected => ?_
    refine hbuffer.get.bind_eq fun b => ?_
    exact .ite (fun _ => .pure rfl) fun _ => .pure rfl

theorem continueStreak_alike (hat : C.At sort level level') (before after : CodeBuffer) (c : Char) :
    (continueStreak (buffer level) (tables level) before after c).Alike C Eq
      (continueStreak (buffer level') (tables level') before after c) := by
  have hbuffer := hat.entry bufferName
  have hstreak := hat.entry streakName
  refine hstreak.get.bind_eq fun streak => ?_
  refine (Program.Alike.ofExcept _).bind_eq fun sides => ?_
  refine (expansion_alike hat after _ c).bind_eq fun expanded => ?_
  cases expanded with
  | some b => exact (hbuffer.set rfl).bind_eq fun _ => hstreak.set rfl
  | none => exact hstreak.set rfl

theorem abbreviationHandler_alike (hat : C.At sort level level') (hinner : h.Alike C h') :
    (abbreviationHandler (buffer level) (tables level) h).Alike C
      (abbreviationHandler (buffer level') (tables level') h') := by
  have hbuffer := hat.entry bufferName
  have hstreak := hat.entry streakName
  intro event
  cases event with
  | key key =>
    refine hbuffer.get.bind_eq fun before => ?_
    refine (hinner (.key key)).bind_eq fun action => ?_
    refine (inserted?_alike hat before key action).bind_eq fun inserted => ?_
    cases inserted with
    | none => exact (hstreak.set rfl).bind_eq fun _ => .pure rfl
    | some inserted =>
      exact (continueStreak_alike hat before inserted.2 inserted.1).bind_eq fun _ => .pure rfl
  | paste isStart => exact hinner (.paste isStart)
  | resize rows columns => exact hinner (.resize rows columns)

theorem withAbbreviations_portable : C.Portable sort withAbbreviations := by
  intro level level' hat
  have hsimple := hat.entry simpleName
  have hcommand := hat.entry commandName
  have hsmallWord := hat.entry smallWordName
  have hstreak := hat.entry streakName
  refine (core_portable level level' hat).bind fun scene scene' hscene => ?_
  refine hsimple.stateAt_bind rfl ?_
  refine hcommand.stateAt_bind rfl ?_
  refine hsmallWord.stateAt_bind rfl ?_
  refine hstreak.stateAt_bind rfl ?_
  exact .pure ⟨hscene.view, abbreviationHandler_alike hat hscene.handler⟩

theorem finishPaste_alike (hat : C.At sort level level') :
    (finishPaste (buffer level) (pastes level)).Alike C Eq
      (finishPaste (buffer level') (pastes level')) := by
  have hpasting := hat.entry pastingName
  have hpasted := hat.entry pastedName
  have hquote := hat.entry quotePasteName
  refine hpasted.get.bind_eq fun text => ?_
  refine hquote.get.bind_eq fun quote => ?_
  refine (edit_alike hat _).bind_eq fun _ => ?_
  exact (hpasting.set rfl).bind_eq fun _ => hpasted.set rfl

theorem pasteHandler_alike (hat : C.At sort level level') (hinner : h.Alike C h') :
    (pasteHandler (buffer level) (pastes level) h).Alike C
      (pasteHandler (buffer level') (pastes level') h') := by
  have hpasting := hat.entry pastingName
  have hpasted := hat.entry pastedName
  intro event
  cases event with
  | paste isStart =>
    cases isStart with
    | true => exact (hpasting.set rfl).bind_eq fun _ => (hpasted.set rfl).bind_eq fun _ => .pure rfl
    | false => exact (finishPaste_alike hat).bind_eq fun _ => .pure rfl
  | key key =>
    refine hpasting.get.bind_eq fun pasting => ?_
    refine .ite (fun _ => ?_) fun _ => hinner (.key key)
    cases key.literal? with
    | none => exact .pure rfl
    | some c => exact (hpasted.modify fun _ => rfl).bind_eq fun _ => .pure rfl
  | resize rows columns => exact hinner (.resize rows columns)

end CodeArea

theorem codeArea_portable : C.Portable sort codeArea := by
  intro level level' hat
  have hpasting := hat.entry CodeArea.pastingName
  have hpasted := hat.entry CodeArea.pastedName
  have hquote := hat.entry CodeArea.quotePasteName
  refine (CodeArea.withAbbreviations_portable level level' hat).bind fun scene scene' hscene => ?_
  refine hpasting.stateAt_bind rfl ?_
  refine hpasted.stateAt_bind rfl ?_
  refine hquote.stateAt_bind rfl ?_
  exact .pure ⟨hscene.view,
    (CodeArea.pasteHandler_alike hat hscene.handler).withBinding hat.self CodeArea.tag⟩

/-! ### List box -/

theorem ListBox.handler_alike (hat : C.At sort level level') :
    (ListBox.handler (items level) (selected level)).Alike C
      (ListBox.handler (items level') (selected level')) := by
  have hitems := hat.entry itemsName
  have hselected := hat.entry selectedName
  intro event
  unfold ListBox.handler
  cases event.key? with
  | none => exact .pure rfl
  | some key =>
    refine hitems.get.bind_eq fun items => ?_
    refine hselected.get.bind_eq fun selected => ?_
    refine .ite (fun _ => (hselected.set rfl).bind_eq fun _ => .pure rfl) fun _ => ?_
    exact .ite (fun _ => (hselected.set rfl).bind_eq fun _ => .pure rfl) fun _ => .pure rfl

theorem listBox_portable : C.Portable sort listBox := by
  intro level level' hat
  have hitems := hat.entry ListBox.itemsName
  have hselected := hat.entry ListBox.selectedName
  have hsubmit := hat.entry ListBox.submitName
  have hhandler := (ListBox.handler_alike hat).withBinding hat.self ListBox.tag
  refine hitems.stateAt_bind rfl ?_
  refine hselected.stateAt_bind rfl ?_
  refine hsubmit.stateAt_bind rfl ?_
  refine hitems.get.bind_eq fun l => ?_
  cases l with
  | none => exact .pure ⟨rfl, hhandler⟩
  | some l => exact hselected.get.bind_eq fun selected => .pure ⟨rfl, hhandler⟩

/-! ### Combo box -/

namespace ComboBox

/-- The content of the filter, which may not be there yet. -/
def filterContent (v : Vars) : Program String := do
  match ← v.buffer.tryGet with
  | .ok b => return b.content
  | .error _ => return ""

/-- Makes the first list. -/
def firstList (v : Vars) : Program Unit := do
  if (← v.lastFilter.value?).isNone then regenerate v (← filterContent v)

end ComboBox

theorem comboBox_eq (interpret : Blueprint → Component) (level : Path) :
    comboBox interpret level = (do
      let _ ← stateAt level ComboBox.generatorName Generator.nothing
      let v := ComboBox.Vars.at level
      ComboBox.firstList v
      let filter ← Component.subcomponent interpret level ComboBox.filterName .codeArea
      let list ← Component.subcomponent interpret level listName .listBox
      return {
        view := .rows [filter.view, list.view] 0
        handler := withBinding level ComboBox.tag
          (ComboBox.handler v filter.handler list.handler) }) := by
  unfold comboBox
  refine bind_congr fun _ => ?_
  dsimp only
  rw [ComboBox.firstList, bind_assoc]
  refine bind_congr fun last => ?_
  split
  · rw [ComboBox.filterContent, bind_assoc, bind_assoc]
    refine bind_congr fun r => ?_
    cases r <;> rfl
  · rfl

namespace ComboBox

/-- The entries of a combo box correspond at two levels: those of its own, and all of those at the
levels of the filter and of the list, which may hold components of a sort only. -/
structure Alike (C : Correspondence) (own inner : Value → Prop) (sort : Blueprint → Bool)
    (level level' : Path) : Prop where
  levels : C.levels level level'
  generator : C.Slot own (level.child generatorName) (level'.child generatorName)
  lastFilter : C.Slot own (level.child lastFilterName) (level'.child lastFilterName)
  filter : C.Slot inner (level.child filterName) (level'.child filterName)
  list : C.Slot inner (level.child listName) (level'.child listName)
  atFilter : C.At sort (level.child filterName) (level'.child filterName)
  atList : C.At sort (level.child listName) (level'.child listName)
  own_nothing : own (.generator .nothing)
  own_string : ∀ s, own (.string s)
  inner_empty : inner (.map .empty)

variable {own inner : Value → Prop} {h h' list list' : Handler}

theorem Alike.of_at (hat : C.At sort level level') :
    Alike C (·.keepsOnly sort = true) (·.keepsOnly sort = true) sort level level' where
  levels := hat.self
  generator := hat.entry generatorName
  lastFilter := hat.entry lastFilterName
  filter := hat.entry filterName
  list := hat.entry listName
  atFilter := hat.child filterName
  atList := hat.child listName
  own_nothing := rfl
  own_string _ := rfl
  inner_empty := rfl

theorem regenerate_alike (halike : Alike C own inner sort level level') (content : String) :
    (regenerate (.at level) content).Alike C Eq (regenerate (.at level') content) := by
  have hitems := halike.atList.entry ListBox.itemsName
  have hselected := halike.atList.entry ListBox.selectedName
  refine halike.generator.get.bind_eq fun generator => ?_
  refine (hitems.set rfl).bind_eq fun _ => ?_
  refine (hselected.set rfl).bind_eq fun _ => ?_
  exact halike.lastFilter.set (halike.own_string content)

theorem handler_alike (halike : Alike C own inner sort level level') (hfilter : h.Alike C h')
    (hlist : list.Alike C list') :
    (handler (.at level) h list).Alike C (handler (.at level') h' list') := by
  have hbuffer := halike.atFilter.entry CodeArea.bufferName
  intro event
  refine (hfilter event).bind_eq fun action => ?_
  refine .ite (fun _ => hlist event) fun _ => ?_
  refine hbuffer.get.bind_eq fun b => ?_
  refine halike.lastFilter.get.bind_eq fun lastFilter => ?_
  refine .ite (fun _ => ?_) fun _ => .pure rfl
  exact (regenerate_alike halike b.content).bind_eq fun _ => .pure rfl

theorem firstList_alike (halike : Alike C own inner sort level level') :
    (firstList (.at level)).Alike C Eq (firstList (.at level')) := by
  have hbuffer := halike.atFilter.entry CodeArea.bufferName
  refine halike.lastFilter.value?.bind_eq fun last => ?_
  refine .ite (fun _ => ?_) fun _ => .pure rfl
  refine Program.Alike.bind_eq ?_ fun content => regenerate_alike halike content
  refine hbuffer.tryGet.bind ?_
  rintro _ _ (⟨rfl, -⟩ | -)
  · exact .pure rfl
  · exact .pure rfl

/-- **A combo box at another level**, where its entries correspond. -/
theorem alike (halike : Alike C own inner sort level level') {interpret : Blueprint → Component}
    (hinterpret : ∀ b : Blueprint, b.keepsOnly sort = true → C.Portable sort (interpret b))
    (hcodeArea : Blueprint.codeArea.keepsOnly sort = true)
    (hlistBox : Blueprint.listBox.keepsOnly sort = true) :
    (comboBox interpret level).Alike C (Scene.Alike C) (comboBox interpret level') := by
  have hfilter := halike.filter.subcomponent halike.inner_empty halike.atFilter hinterpret hcodeArea
  have hlist := halike.list.subcomponent halike.inner_empty halike.atList hinterpret hlistBox
  rw [comboBox_eq, comboBox_eq]
  refine halike.generator.stateAt_bind halike.own_nothing ?_
  refine (firstList_alike halike).bind_eq fun _ => ?_
  refine hfilter.bind fun filter filter' hfilter => ?_
  refine hlist.bind fun list list' hlist => ?_
  have hhandler := handler_alike halike hfilter.handler hlist.handler
  refine .pure ⟨?_, hhandler.withBinding halike.levels tag⟩
  dsimp only
  rw [hfilter.view, hlist.view]

end ComboBox

theorem comboBox_portable {interpret : Blueprint → Component}
    (hinterpret : ∀ b : Blueprint, b.keepsOnly sort = true → C.Portable sort (interpret b))
    (hcodeArea : Blueprint.codeArea.keepsOnly sort = true)
    (hlistBox : Blueprint.listBox.keepsOnly sort = true) :
    C.Portable sort (comboBox interpret) :=
  fun _ _ hat => ComboBox.alike (.of_at hat) hinterpret hcodeArea hlistBox

end TerminalUI
