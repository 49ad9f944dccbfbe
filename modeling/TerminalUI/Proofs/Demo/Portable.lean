import Mathlib.Data.List.Forall2
import TerminalUI.Catalog
import TerminalUI.Proofs.Widget.Portable

/-!
# Components at other levels

Every component is put together from the operations of `Proofs.Program.Alike`, so it makes the same
scene at two levels that correspond, as long as the components that are kept below do. A button is
different: what it does when it is pressed may be told in paths from the root, and a counter and a
form give such paths to the buttons inside them. These three make the same scene at one level only.

* `Blueprint.Closed` : what a sort of components has to have, so that its components use no others;
* `Blueprint.component_portable` : **the components of such a sort are portable**.
-/

namespace TerminalUI

open Correspondence

variable {C : Correspondence} {sort : Blueprint → Bool} {level level' : Path}
  {interpret : Blueprint → Component}

/-! ### Samples -/

namespace Sample

theorem still_portable (view : View) : C.Portable sort (still view) :=
  fun _ _ _ => .pure ⟨rfl, .unused C⟩

theorem echo_portable (tag : String) : C.Portable sort (echo tag) := by
  intro level level' hat
  have hlast := hat.entry lastName
  refine hlast.stateAt_bind rfl ?_
  refine hlast.get.bind_eq fun last => ?_
  refine .pure ⟨rfl, Handler.Alike.withBinding (fun event => ?_) hat.self tag⟩
  cases event.key? with
  | none => exact .pure rfl
  | some key =>
    exact .ite (fun _ => .pure rfl) fun _ => (hlast.set rfl).bind_eq fun _ => .pure rfl

theorem tally_portable (tag : String) : C.Portable sort (tally tag) := by
  intro level level' hat
  have hn := hat.entry countName
  refine hn.stateAt_bind rfl ?_
  refine hn.get.bind_eq fun n => ?_
  refine .pure ⟨rfl, Handler.Alike.withBinding (fun event => ?_) hat.self tag⟩
  exact (hn.modify fun _ => rfl).bind_eq fun _ => .pure rfl

theorem made_portable (count : UInt32) : C.Portable sort (made count) := by
  intro level level' hat
  have hborn := hat.entry bornName
  exact hborn.stateAt_bind rfl (.pure ⟨rfl, .unused C⟩)

theorem frozen_portable
    (hinterpret : ∀ b : Blueprint, b.keepsOnly sort = true → C.Portable sort (interpret b))
    (hmade : ∀ count, (Blueprint.made count).keepsOnly sort = true) :
    C.Portable sort (frozen interpret) := by
  intro level level' hat
  have hn := hat.entry countName
  refine hn.stateAt_bind rfl ?_
  refine hn.get.bind_eq fun n => ?_
  refine (hat.subcomponent hinterpret (hmade n)).bind fun child child' hchild => ?_
  refine .pure ⟨hchild.view, Handler.Alike.withBinding (fun event => ?_) hat.self "frozen"⟩
  exact (hn.modify fun _ => rfl).bind_eq fun _ => .pure rfl

end Sample

/-! ### Parts -/

/-- Scenes that are alike, one by one. -/
abbrev ScenesAlike (C : Correspondence) : List Scene → List Scene → Prop :=
  List.Forall₂ (Scene.Alike C)

theorem ScenesAlike.views {scenes scenes' : List Scene} (h : ScenesAlike C scenes scenes') :
    scenes.map Scene.view = scenes'.map Scene.view := by
  induction h with
  | nil => rfl
  | cons hscene _ ih => rw [List.map_cons, List.map_cons, hscene.view, ih]

/-- The handlers of scenes that are alike, one by one, at an index. -/
theorem ScenesAlike.handler {scenes scenes' : List Scene} (h : ScenesAlike C scenes scenes')
    (i : Nat) :
    ((scenes.map Scene.handler)[i]? = none ∧ (scenes'.map Scene.handler)[i]? = none) ∨
      ∃ part part', (scenes.map Scene.handler)[i]? = some part ∧
        (scenes'.map Scene.handler)[i]? = some part' ∧ part.Alike C part' := by
  induction h generalizing i with
  | nil => exact .inl ⟨rfl, rfl⟩
  | cons hscene _ ih =>
    cases i with
    | zero => exact .inr ⟨_, _, rfl, rfl, hscene.handler⟩
    | succ i => simpa using ih i

/-- Do all parts have a name? -/
def Parts.named : Parts → Bool
  | .none => true
  | .part name _ rest => name ≠ "" && rest.named

namespace Sample

theorem partScenes_alike (hat : C.At sort level level')
    (hinterpret : ∀ b : Blueprint, b.keepsOnly sort = true → C.Portable sort (interpret b))
    {parts : Parts} (hparts : parts.keepsOnly sort = true) (hnamed : parts.named = true) :
    (partScenes interpret level parts).Alike C (ScenesAlike C)
      (partScenes interpret level' parts) := by
  match parts with
  | .none => exact .pure .nil
  | .part name b rest =>
    simp only [Parts.keepsOnly, Parts.named, Bool.and_eq_true, decide_eq_true_eq] at hparts hnamed
    have hrest := partScenes_alike hat hinterpret hparts.2 hnamed.2
    obtain ⟨name, rfl⟩ : ∃ n : Name, n.text = name := ⟨⟨name, hnamed.1⟩, rfl⟩
    refine (hat.subcomponent hinterpret hparts.1).bind fun scene scene' hscene => ?_
    exact hrest.bind fun scenes scenes' hscenes => .pure (.cons hscene hscenes)

theorem stackHandler_alike (hat : C.At sort level level') {scenes scenes' : List Scene}
    (hscenes : ScenesAlike C scenes scenes') (current : Nat) :
    (stackHandler ⟨level.child focusName⟩ current (scenes.map Scene.handler)).Alike C
      (stackHandler ⟨level'.child focusName⟩ current (scenes'.map Scene.handler)) := by
  have hfocus := hat.entry focusName
  intro event
  have haction : (((scenes.map Scene.handler)[current]?).elim (pure .unused) (· event)).Alike C Eq
      (((scenes'.map Scene.handler)[current]?).elim (pure .unused) (· event)) := by
    obtain ⟨hpart, hpart'⟩ | ⟨part, part', hpart, hpart', halike⟩ := hscenes.handler current
    · rw [hpart, hpart']
      exact .pure rfl
    · rw [hpart, hpart']
      exact halike event
  refine haction.bind_eq fun action => ?_
  have hempty : scenes.isEmpty = scenes'.isEmpty := by
    cases hscenes <;> rfl
  simp only [List.isEmpty_map, hempty, List.length_map, hscenes.length_eq]
  refine .ite (fun _ => ?_) fun _ => .pure rfl
  exact (hfocus.set (a := (current + 1) % scenes'.length) rfl).bind_eq fun _ => .pure rfl

theorem stack_portable
    (hinterpret : ∀ b : Blueprint, b.keepsOnly sort = true → C.Portable sort (interpret b))
    (arrangement : Arrangement) (gap : Nat) {parts : Parts} (hparts : parts.keepsOnly sort = true)
    (hnamed : parts.named = true) : C.Portable sort (stack interpret arrangement gap parts) := by
  intro level level' hat
  have hfocus := hat.entry focusName
  have hscenes := partScenes_alike hat hinterpret hparts hnamed
  refine hfocus.stateAt_bind rfl ?_
  refine hscenes.bind fun scenes scenes' hscenes => ?_
  refine hfocus.get.bind_eq fun current => ?_
  refine .pure ⟨?_, stackHandler_alike hat hscenes current⟩
  dsimp only
  rw [hscenes.views]

end Sample

/-! ### Demonstrations -/

theorem wrapper_portable
    (hinterpret : ∀ b : Blueprint, b.keepsOnly sort = true → C.Portable sort (interpret b))
    (hblank : Blueprint.blank.keepsOnly sort = true) : C.Portable sort (wrapper interpret) := by
  intro level level' hat
  refine (hat.subcomponent hinterpret hblank).bind fun inner inner' hinner => ?_
  refine ((hat.entry Wrapper.innerName).getD _).bind_eq fun t => ?_
  refine .pure ⟨?_, fun event => ?_⟩
  · dsimp only
    rw [hinner.view]
  · refine (hinner.handler event).bind_eq fun action => ?_
    exact .ite (fun _ => .pure rfl) fun _ => .pure rfl

namespace Temperature

theorem sync_alike {p p' q q' : Path} (hsource : C.Slot (·.keepsOnly sort = true) p p')
    (htarget : C.Slot (·.keepsOnly sort = true) q q') (formula : Float → Float) :
    (sync ⟨p⟩ ⟨q⟩ formula).Alike C Eq (sync ⟨p'⟩ ⟨q'⟩ formula) := by
  refine hsource.get.bind_eq fun b => ?_
  cases convert? formula b.content with
  | none => exact .pure rfl
  | some s => exact htarget.set rfl

/-- The variables of the converter at a level. -/
def Vars.at (level : Path) : Vars where
  celsius := CodeArea.buffer (level.child celsiusName)
  fahrenheit := CodeArea.buffer (level.child fahrenheitName)
  focus := ⟨level.child focusName⟩

theorem handler_alike (hat : C.At sort level level')
    {celsius celsius' fahrenheit fahrenheit' : Handler}
    (hcelsius : celsius.Alike C celsius') (hfahrenheit : fahrenheit.Alike C fahrenheit') :
    (handler (.at level) celsius fahrenheit).Alike C
      (handler (.at level') celsius' fahrenheit') := by
  have hfocus := hat.entry focusName
  have hbuffer := (hat.child celsiusName).entry CodeArea.bufferName
  have hbuffer' := (hat.child fahrenheitName).entry CodeArea.bufferName
  intro event
  refine hfocus.get.bind_eq fun current => ?_
  refine .ite (fun _ => ?_) fun _ => .ite (fun _ => ?_) fun _ => ?_
  · exact .ite (fun _ => .fault _) fun _ => (hfocus.set rfl).bind_eq fun _ => .pure rfl
  · refine (hcelsius event).bind_eq fun action => .ite (fun _ => ?_) fun _ => .pure rfl
    exact (sync_alike hbuffer hbuffer' _).bind_eq fun _ => .pure rfl
  · refine (hfahrenheit event).bind_eq fun action => .ite (fun _ => ?_) fun _ => .pure rfl
    exact (sync_alike hbuffer' hbuffer _).bind_eq fun _ => .pure rfl

end Temperature

theorem temperature_portable
    (hinterpret : ∀ b : Blueprint, b.keepsOnly sort = true → C.Portable sort (interpret b))
    (hfield : ∀ prompt, (Blueprint.field prompt).keepsOnly sort = true) :
    C.Portable sort (temperature interpret) := by
  intro level level' hat
  have hfocus := hat.entry focusName
  refine (hat.subcomponent hinterpret (hfield _)).bind fun celsius celsius' hcelsius => ?_
  refine (hat.subcomponent hinterpret (hfield _)).bind fun fahrenheit fahrenheit' hfahrenheit => ?_
  refine hfocus.stateAt_bind rfl ?_
  refine hfocus.get.bind_eq fun current => ?_
  refine .pure ⟨?_, Temperature.handler_alike hat hcelsius.handler hfahrenheit.handler⟩
  dsimp only
  rw [hcelsius.view, hfahrenheit.view]

theorem wizard_portable
    (hinterpret : ∀ b : Blueprint, b.keepsOnly sort = true → C.Portable sort (interpret b))
    (hlist : ∀ l,
      (Blueprint.withStates [(ListBox.itemsName, .items l)] .listBox).keepsOnly sort = true) :
    C.Portable sort (wizard interpret) := by
  intro level level' hat
  have hselected := (hat.child listName).entry ListBox.selectedName
  refine (hat.subcomponent hinterpret (hlist _)).bind fun list list' hlist => ?_
  refine hselected.get.bind_eq fun selected => ?_
  refine .pure ⟨?_, fun event => ?_⟩
  · dsimp only
    rw [hlist.view]
  · unfold Wizard.handler
    exact .ite (fun _ => .pure rfl) fun _ => hlist.handler event

namespace TodoList

/-- The variables of the to-do list at a level. -/
def Vars.at (level : Path) : Vars where
  todos := ⟨level.child todosName⟩
  items := ListBox.items (level.child listName)
  selected := ListBox.selected (level.child listName)
  entry := CodeArea.buffer (level.child newItemName)
  focus := ⟨level.child focusName⟩

variable {list list' entry entry' : Handler}

theorem update_alike (hat : C.At sort level level') (f : List Todo → List Todo) :
    (update (.at level) f).Alike C Eq (update (.at level') f) := by
  have htodos := hat.entry todosName
  have hitems := (hat.child listName).entry ListBox.itemsName
  refine htodos.get.bind_eq fun todos => ?_
  exact (hitems.set rfl).bind_eq fun _ => htodos.set rfl

theorem listKey_alike (hat : C.At sort level level') (hlist : list.Alike C list') (event : Event) :
    (listKey (.at level) list event).Alike C Eq (listKey (.at level') list' event) := by
  have hfocus := hat.entry focusName
  have hselected := (hat.child listName).entry ListBox.selectedName
  refine (hlist event).bind_eq fun action => ?_
  refine .ite (fun _ => .pure rfl) fun _ => .ite (fun _ => ?_) fun _ =>
    .ite (fun _ => ?_) fun _ => .pure rfl
  · exact (hfocus.set rfl).bind_eq fun _ => .pure rfl
  · refine hselected.get.bind_eq fun i => ?_
    exact (update_alike hat _).bind_eq fun _ => .pure rfl

theorem entryKey_alike (hat : C.At sort level level') (hentry : entry.Alike C entry')
    (event : Event) :
    (entryKey (.at level) entry event).Alike C Eq (entryKey (.at level') entry' event) := by
  have hfocus := hat.entry focusName
  have hbuffer := (hat.child newItemName).entry CodeArea.bufferName
  refine .ite (fun _ => ?_) fun _ => ?_
  · refine hbuffer.get.bind_eq fun b => ?_
    refine (update_alike hat _).bind_eq fun _ => ?_
    exact (hbuffer.set rfl).bind_eq fun _ => .pure rfl
  · refine (hentry event).bind_eq fun action => .ite (fun _ => ?_) fun _ => .pure rfl
    exact (hfocus.set rfl).bind_eq fun _ => .pure rfl

theorem handler_alike (hat : C.At sort level level') (current : Nat) (hlist : list.Alike C list')
    (hentry : entry.Alike C entry') :
    (handler (.at level) current list entry).Alike C
      (handler (.at level') current list' entry') := by
  have hfocus := hat.entry focusName
  intro event
  unfold handler
  refine .ite (fun _ => .pure rfl) fun _ => .ite (fun _ => ?_) fun _ =>
    .ite (fun _ => ?_) fun _ => ?_
  · exact .ite (fun _ => .fault _) fun _ => (hfocus.set rfl).bind_eq fun _ => .pure rfl
  · exact listKey_alike hat hlist event
  · exact entryKey_alike hat hentry event

end TodoList

theorem todoList_portable
    (hinterpret : ∀ b : Blueprint, b.keepsOnly sort = true → C.Portable sort (interpret b))
    (hfield : ∀ prompt, (Blueprint.field prompt).keepsOnly sort = true)
    (hlistBox : Blueprint.listBox.keepsOnly sort = true) : C.Portable sort (todoList interpret) := by
  intro level level' hat
  have htodos := hat.entry TodoList.todosName
  have hfocus := hat.entry focusName
  refine htodos.stateAt_bind rfl ?_
  refine (hat.subcomponent hinterpret hlistBox).bind fun list list' hlist => ?_
  refine (hat.subcomponent hinterpret (hfield _)).bind fun entry entry' hentry => ?_
  refine hfocus.stateAt_bind rfl ?_
  refine hfocus.get.bind_eq fun current => ?_
  refine .pure ⟨?_, TodoList.handler_alike hat current hlist.handler hentry.handler⟩
  dsimp only
  rw [hlist.view, hentry.view]

namespace Navigator

/-- Columns that show the same, with handlers that are alike. -/
structure Panel.Alike (C : Correspondence) (panel panel' : Panel) : Prop where
  view : panel.view = panel'.view
  selected : panel.selected = panel'.selected
  handler : ∀ event, (panel.handler.elim (pure .unused) (· event)).Alike C Eq
    (panel'.handler.elim (pure .unused) (· event))

theorem panel_alike
    (hinterpret : ∀ b : Blueprint, b.keepsOnly sort = true → C.Portable sort (interpret b))
    (hlist : ∀ l,
      (Blueprint.withStates [(ListBox.itemsName, .items l)] .listBox).keepsOnly sort = true)
    (hat : C.At sort level level') (data : Node) (path : List String) :
    (panel interpret level data path).Alike C (Panel.Alike C)
      (panel interpret level' data path) := by
  unfold panel
  cases data.access? path with
  | none => exact .pure ⟨rfl, rfl, fun _ => .pure rfl⟩
  | some node =>
    cases node with
    | leaf text => exact .pure ⟨rfl, rfl, fun _ => .pure rfl⟩
    | directory children =>
      have hselected := (hat.child (panelName path)).entry ListBox.selectedName
      refine (hat.subcomponent hinterpret (hlist _)).bind fun list list' hlist => ?_
      exact hselected.get.bind_eq fun selected => .pure ⟨hlist.view, rfl, hlist.handler⟩

/-- What the column above the current directory shows. -/
def parentView (interpret : Blueprint → Component) (level : Path) (data : Node)
    (path : List String) : Program View :=
  if path.isEmpty then return .empty
  else return (← panel interpret level data path.dropLast).view

/-- What the column below the current directory shows. -/
def previewView (interpret : Blueprint → Component) (level : Path) (data : Node)
    (path : List String) (selected : Option String) : Program View := do
  match selected with
  | some name => return (← panel interpret level data (path ++ [name])).view
  | none => return .empty

theorem handler_alike (hat : C.At sort level level') (path : List String) {current current' : Panel}
    (hcurrent : current.Alike C current') :
    (handler ⟨level.child pathName⟩ path current).Alike C
      (handler ⟨level'.child pathName⟩ path current') := by
  have hpath := hat.entry pathName
  intro event
  unfold handler
  refine .ite (fun _ => ?_) fun _ => ?_
  · exact .ite (fun _ => .pure rfl) fun _ => (hpath.set rfl).bind_eq fun _ => .pure rfl
  · rw [hcurrent.selected]
    split
    · exact (hpath.set rfl).bind_eq fun _ => .pure rfl
    · exact hcurrent.handler event

end Navigator

theorem navigator_eq (interpret : Blueprint → Component) (level : Path) :
    navigator interpret level = (do
      let dataVar ← stateAt level Navigator.dataName (Node.directory .empty)
      let data ← dataVar.get
      let pathVar ← stateAt level Navigator.pathName ([] : List String)
      let path ← pathVar.get
      let parent ← Navigator.parentView interpret level data path
      let current ← Navigator.panel interpret level data path
      let preview ← Navigator.previewView interpret level data path current.selected
      return {
        view := .rows [.plain ("path = " ++ Listing.texts path),
          .columns [parent, current.view, preview] 1] 0
        handler := Navigator.handler pathVar path current }) := by
  unfold navigator
  refine bind_congr fun dataVar => bind_congr fun data => ?_
  refine bind_congr fun pathVar => bind_congr fun path => ?_
  have hcurrent (parent : View) :
      (do
        let current ← Navigator.panel interpret level data path
        match current.selected with
        | some name => do
          let x ← Navigator.panel interpret level data (path ++ [name])
          return {
            view := .rows [.plain ("path = " ++ Listing.texts path),
              .columns [parent, current.view, x.view] 1] 0
            handler := Navigator.handler pathVar path current }
        | none => return {
            view := .rows [.plain ("path = " ++ Listing.texts path),
              .columns [parent, current.view, .empty] 1] 0
            handler := Navigator.handler pathVar path current } : Program Scene) = (do
      let current ← Navigator.panel interpret level data path
      let preview ← Navigator.previewView interpret level data path current.selected
      return {
        view := .rows [.plain ("path = " ++ Listing.texts path),
          .columns [parent, current.view, preview] 1] 0
        handler := Navigator.handler pathVar path current }) := by
    refine bind_congr fun current => ?_
    cases current.selected with
    | none => rfl
    | some name =>
      rw [Navigator.previewView, bind_assoc]
      rfl
  rw [Navigator.parentView]
  split
  · exact hcurrent .empty
  · rw [bind_assoc]
    exact bind_congr fun parent => hcurrent parent.view

theorem navigator_portable
    (hinterpret : ∀ b : Blueprint, b.keepsOnly sort = true → C.Portable sort (interpret b))
    (hlist : ∀ l,
      (Blueprint.withStates [(ListBox.itemsName, .items l)] .listBox).keepsOnly sort = true) :
    C.Portable sort (navigator interpret) := by
  intro level level' hat
  have hdata := hat.entry Navigator.dataName
  have hpath := hat.entry Navigator.pathName
  have hpanel := Navigator.panel_alike hinterpret hlist hat
  rw [navigator_eq, navigator_eq]
  refine hdata.stateAt_bind rfl ?_
  refine hdata.get.bind_eq fun data => ?_
  refine hpath.stateAt_bind rfl ?_
  refine hpath.get.bind_eq fun path => ?_
  have hparent : (Navigator.parentView interpret level data path).Alike C Eq
      (Navigator.parentView interpret level' data path) :=
    .ite (fun _ => .pure rfl) fun _ => (hpanel _ _).bind fun _ _ h => .pure h.view
  refine hparent.bind_eq fun parent => ?_
  refine (hpanel data path).bind fun current current' hcurrent => ?_
  have hpreview (selected : Option String) :
      (Navigator.previewView interpret level data path selected).Alike C Eq
        (Navigator.previewView interpret level' data path selected) := by
    cases selected with
    | none => exact .pure rfl
    | some name => exact (hpanel _ _).bind fun _ _ h => .pure h.view
  rw [hcurrent.selected]
  refine (hpreview _).bind_eq fun preview => ?_
  refine .pure ⟨?_, Navigator.handler_alike hat path hcurrent⟩
  dsimp only
  rw [hcurrent.view]

/-! ### Components at one place -/

/-- Only a level corresponds to itself, and all entries do. -/
structure Correspondence.OnePlace (C : Correspondence) (sort : Blueprint → Bool) : Prop where
  eq_of_levels : ∀ {level level'}, C.levels level level' → level = level'
  slot : ∀ p, C.Slot (·.keepsOnly sort = true) p p

theorem bookingText_alike (hplace : C.OnePlace sort) (form : Path) :
    (bookingText form).Alike C Eq (bookingText form) := by
  have hdate (name : String) :
      (do return (← (Var.mk (form.join [name, "buffer"])).getD ({} : CodeBuffer)).content).Alike C Eq
        (do return (← (Var.mk (form.join [name, "buffer"])).getD ({} : CodeBuffer)).content) :=
    ((hplace.slot _).getD _).bind_eq fun _ => .pure rfl
  refine ((hplace.slot _).getD _).bind_eq fun selected => ?_
  refine .ite (fun _ => ?_) fun _ => ?_
  · exact (hdate "outbound").bind_eq fun date => .pure rfl
  · exact (hdate "outbound").bind_eq fun date => (hdate "inbound").bind_eq fun date' => .pure rfl

theorem Press.run_alike (hplace : C.OnePlace sort) (press : Press) :
    press.run.Alike C Eq press.run := by
  cases press with
  | change target amount action =>
    cases target with
    | none => exact .pure rfl
    | some target => exact ((hplace.slot target).modify fun _ => rfl).bind_eq fun _ => .pure rfl
  | book form status =>
    refine (bookingText_alike hplace form).bind_eq fun text => ?_
    exact ((hplace.slot status).set rfl).bind_eq fun _ => .pure rfl

theorem button_portable (hplace : C.OnePlace sort) : C.Portable sort button := by
  intro level level' hat
  have hlabel := hat.entry Button.labelName
  have hpress := hat.entry Button.pressName
  refine hlabel.stateAt_bind rfl ?_
  refine hpress.stateAt_bind rfl ?_
  refine hlabel.get.bind_eq fun label => ?_
  refine .pure ⟨rfl, Handler.Alike.withBinding (fun event => ?_) hat.self Button.tag⟩
  unfold Button.handler
  exact .ite (fun _ => hpress.get.bind_eq fun press => press.run_alike hplace) fun _ => .pure rfl

theorem counter_portable (hplace : C.OnePlace sort)
    (hinterpret : ∀ b : Blueprint, b.keepsOnly sort = true → C.Portable sort (interpret b))
    (hlabelled : ∀ label press, (Button.labelled label press).keepsOnly sort = true) :
    C.Portable sort (counter interpret) := by
  intro level level' hat
  obtain rfl := hplace.eq_of_levels hat.self
  have hvalue := hat.entry Counter.valueName
  refine hvalue.stateAt_bind rfl ?_
  refine (hat.subcomponent hinterpret (hlabelled _ _)).bind fun button button' hbutton => ?_
  refine hvalue.get.bind_eq fun n => .pure ⟨?_, hbutton.handler⟩
  dsimp only
  rw [hbutton.view]

theorem Flight.handler_alike (hat : C.At sort level level') (current : Nat)
    {scenes scenes' : List Scene} (hscenes : ScenesAlike C scenes scenes') :
    (handler ⟨level.child focusName⟩ current (scenes.map Scene.handler)).Alike C
      (handler ⟨level'.child focusName⟩ current (scenes'.map Scene.handler)) := by
  have hfocus := hat.entry focusName
  intro event
  unfold handler
  obtain ⟨hpart, hpart'⟩ | ⟨part, part', hpart, hpart', halike⟩ := hscenes.handler current
  · rw [hpart, hpart']
    exact .fault _
  · rw [hpart, hpart']
    simp only [List.length_map, hscenes.length_eq]
    refine (halike event).bind_eq fun action => ?_
    refine .ite (fun _ => .pure rfl) fun _ => .ite (fun _ => ?_) fun _ =>
      .ite (fun _ => ?_) fun _ => .pure rfl
    · exact (hfocus.set rfl).bind_eq fun _ => .pure rfl
    · exact (hfocus.set rfl).bind_eq fun _ => .pure rfl

theorem flight_portable (hplace : C.OnePlace sort)
    (hinterpret : ∀ b : Blueprint, b.keepsOnly sort = true → C.Portable sort (interpret b))
    (hfield : ∀ prompt, (Blueprint.field prompt).keepsOnly sort = true)
    (hlist : ∀ l,
      (Blueprint.withStates [(ListBox.itemsName, .items l)] .listBox).keepsOnly sort = true)
    (hlabelled : ∀ label press, (Button.labelled label press).keepsOnly sort = true) :
    C.Portable sort (flight interpret) := by
  intro level level' hat
  obtain rfl := hplace.eq_of_levels hat.self
  have hstatus := hat.entry Flight.statusName
  have hfocus := hat.entry focusName
  refine hstatus.stateAt_bind rfl ?_
  refine (hat.subcomponent hinterpret (hlist _)).bind fun type type' htype => ?_
  refine (hat.subcomponent hinterpret (hfield _)).bind fun outbound outbound' houtbound => ?_
  refine (hat.subcomponent hinterpret (hfield _)).bind fun inbound inbound' hinbound => ?_
  refine (hat.subcomponent hinterpret (hlabelled _ _)).bind fun book book' hbook => ?_
  refine hfocus.stateAt_bind rfl ?_
  refine hfocus.get.bind_eq fun current => ?_
  refine hstatus.get.bind_eq fun status => ?_
  have hscenes : ScenesAlike C [type, outbound, inbound, book] [type', outbound', inbound', book'] :=
    .cons htype (.cons houtbound (.cons hinbound (.cons hbook .nil)))
  refine .pure ⟨?_, Flight.handler_alike hat current hscenes⟩
  dsimp only
  rw [hscenes.views]

/-! ### All components -/

/-- What a sort of components has to have, so that the components of the sort use no others, and are
portable. Those that name paths from the root have to stay at their place. -/
structure Blueprint.Closed (C : Correspondence) (sort : Blueprint → Bool) : Prop where
  codeArea : Blueprint.codeArea.keepsOnly sort = true
  listBox : Blueprint.listBox.keepsOnly sort = true
  blank : Blueprint.blank.keepsOnly sort = true
  field : ∀ prompt, (Blueprint.field prompt).keepsOnly sort = true
  list : ∀ l, (Blueprint.withStates [(ListBox.itemsName, .items l)] .listBox).keepsOnly sort = true
  made : sort .frozen = true → ∀ count, (Blueprint.made count).keepsOnly sort = true
  named : ∀ arrangement gap parts, sort (.stack arrangement gap parts) = true → parts.named = true
  below : ∀ path v b, sort (.seeded path v b) = true → path ≠ .root
  onePlace : sort .button = true ∨ sort .counter = true ∨ sort .flight = true →
    C.OnePlace sort ∧ ∀ label press, (Button.labelled label press).keepsOnly sort = true

namespace Blueprint

/-- **The components of a closed sort are portable.** -/
theorem component_portable (hclosed : Closed C sort) (depth : Nat) {b : Blueprint}
    (hb : b.keepsOnly sort = true) : C.Portable sort (b.component depth) := by
  induction depth generalizing b with
  | zero => exact fun _ _ _ => .fault _
  | succ depth ih =>
    have hsort := sort_of_keepsOnly hb
    have hinterpret :
        ∀ b : Blueprint, b.keepsOnly sort = true → C.Portable sort (component depth b) :=
      fun b hb => ih hb
    cases b with
    | codeArea => exact codeArea_portable
    | listBox => exact listBox_portable
    | comboBox => exact comboBox_portable hinterpret hclosed.codeArea hclosed.listBox
    | button => exact button_portable (hclosed.onePlace (.inl hsort)).1
    | wrapper => exact wrapper_portable hinterpret hclosed.blank
    | blank => exact Sample.still_portable .empty
    | counter =>
      obtain ⟨hplace, hlabelled⟩ := hclosed.onePlace (.inr (.inl hsort))
      exact counter_portable hplace hinterpret hlabelled
    | temperature => exact temperature_portable hinterpret hclosed.field
    | flight =>
      obtain ⟨hplace, hlabelled⟩ := hclosed.onePlace (.inr (.inr hsort))
      exact flight_portable hplace hinterpret hclosed.field hclosed.list hlabelled
    | wizard => exact wizard_portable hinterpret hclosed.list
    | todo => exact todoList_portable hinterpret hclosed.field hclosed.listBox
    | navigator => exact navigator_portable hinterpret hclosed.list
    | still view => exact Sample.still_portable view
    | echo tag => exact Sample.echo_portable tag
    | tally tag => exact Sample.tally_portable tag
    | frozen => exact Sample.frozen_portable hinterpret (hclosed.made hsort)
    | made count => exact Sample.made_portable count
    | stack arrangement gap parts =>
      simp only [keepsOnly, Bool.and_eq_true] at hb
      exact Sample.stack_portable hinterpret arrangement gap hb.2 (hclosed.named _ _ _ hsort)
    | seeded path value inner =>
      simp only [keepsOnly, Bool.and_eq_true] at hb
      exact (ih hb.2).withState (hclosed.below _ _ _ hsort) hb.1.2

end Blueprint

end TerminalUI
