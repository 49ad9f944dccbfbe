import TerminalUI.Proofs.Demo.Portable
import TerminalUI.Proofs.Widget.Settles

/-!
# Demonstrations settle

A demonstration sets the variables that are missing and makes the scenes of the components below it,
each of them under a name of its own, so that none of them writes what another one goes by. In the
navigator the names are listings of paths, and a longer path has a longer listing.

* `Blueprint.isSteady` : the widgets and the demonstrations, and such with seeds near their level;
* `Blueprint.component_settled` : **these components settle**.
-/

namespace TerminalUI

open Program Component

variable {hook : Option Hook} {sort : Blueprint → Bool} {level : Path}
  {interpret : Blueprint → Component}

theorem still_settled (view : View) : (Sample.still view).Settled hook sort := fun _ => .pure _

theorem button_settled : button.Settled hook sort := by
  intro level
  refine .stateAt_bind rfl (by decide) (Set.Subset.refl _) ?_
  refine .stateAt_bind rfl (by decide) (Set.empty_subset _) ?_
  exact .get_entry_bind (Set.mem_univ _) fun label => .pure _

section

variable (hinterpret : ∀ b : Blueprint, b.keepsOnly sort = true → (interpret b).Settled hook sort)

include hinterpret

theorem wrapper_settled (hblank : Blueprint.blank.keepsOnly sort = true) :
    (wrapper interpret).Settled hook sort := by
  intro level
  refine settles_subcomponent_bind hinterpret hblank (Set.mem_univ _) (by decide)
    (Set.empty_subset _) (Set.notMem_empty _) fun inner => ?_
  have hread : Settles hook sort level ∅ {Wrapper.innerName}
      (Var.getD ⟨level.child Wrapper.innerName⟩ Tree.empty) :=
    .getD (List.prefix_refl _) _
  exact hread.reads_bind (fun t => .pure _) (Set.mem_univ _) (Set.notMem_empty _)

theorem counter_settled
    (hlabelled : ∀ label press, (Button.labelled label press).keepsOnly sort = true) :
    (counter interpret).Settled hook sort := by
  intro level
  refine .stateAt_bind rfl (by decide) (Set.Subset.refl _) ?_
  refine settles_subcomponent_bind hinterpret (hlabelled _ _) (Set.mem_univ _)
    (by decide) (Set.empty_subset _) (Set.notMem_empty _) fun button => ?_
  exact .get_entry_bind (Set.mem_univ _) fun n => .pure _

theorem temperature_settled (hfield : ∀ prompt, (Blueprint.field prompt).keepsOnly sort = true) :
    (temperature interpret).Settled hook sort := by
  intro level
  have hscene : (temperature interpret level).Settles hook sort level
      {Temperature.celsiusName, Temperature.fahrenheitName, focusName} Set.univ := by
    refine settles_subcomponent_bind hinterpret (hfield _) (Set.mem_univ _)
      (Set.mem_insert _ _) (Set.subset_insert _ _) (by decide) fun celsius => ?_
    refine settles_subcomponent_bind hinterpret (hfield _) (Set.mem_univ _)
      (Set.mem_insert _ _) (Set.subset_insert _ _) (by decide) fun fahrenheit => ?_
    refine .stateAt_bind rfl rfl (Set.empty_subset _) ?_
    exact .get_entry_bind (Set.mem_univ _) fun current => .pure _
  refine hscene.mono ?_ (Set.Subset.refl _)
  simp only [Set.insert_subset_iff, Set.singleton_subset_iff, Set.mem_ofPred_eq]
  decide

theorem flight_settled (hfield : ∀ prompt, (Blueprint.field prompt).keepsOnly sort = true)
    (hlist : ∀ l,
      (Blueprint.withStates [(ListBox.itemsName, .items l)] .listBox).keepsOnly sort = true)
    (hlabelled : ∀ label press, (Button.labelled label press).keepsOnly sort = true) :
    (flight interpret).Settled hook sort := by
  intro level
  have hscene : (flight interpret level).Settles hook sort level
      {Flight.statusName, Flight.typeName, Flight.outboundName, Flight.inboundName,
        Flight.bookName, focusName} Set.univ := by
    refine .stateAt_bind rfl (Set.mem_insert _ _) (Set.subset_insert _ _) ?_
    refine settles_subcomponent_bind hinterpret (hlist _) (Set.mem_univ _)
      (Set.mem_insert _ _) (Set.subset_insert _ _) (by decide) fun type => ?_
    refine settles_subcomponent_bind hinterpret (hfield _) (Set.mem_univ _)
      (Set.mem_insert _ _) (Set.subset_insert _ _) (by decide) fun outbound => ?_
    refine settles_subcomponent_bind hinterpret (hfield _) (Set.mem_univ _)
      (Set.mem_insert _ _) (Set.subset_insert _ _) (by decide) fun inbound => ?_
    refine settles_subcomponent_bind hinterpret (hlabelled _ _) (Set.mem_univ _)
      (Set.mem_insert _ _) (Set.subset_insert _ _) (by decide) fun book => ?_
    refine .stateAt_bind rfl rfl (Set.empty_subset _) ?_
    refine .get_entry_bind (Set.mem_univ _) fun current => ?_
    exact .get_entry_bind (Set.mem_univ _) fun status => .pure _
  refine hscene.mono ?_ (Set.Subset.refl _)
  simp only [Set.insert_subset_iff, Set.singleton_subset_iff, Set.mem_ofPred_eq]
  decide

theorem wizard_settled
    (hlist : ∀ l,
      (Blueprint.withStates [(ListBox.itemsName, .items l)] .listBox).keepsOnly sort = true) :
    (wizard interpret).Settled hook sort := by
  intro level
  refine settles_subcomponent_bind hinterpret (hlist _) (Set.mem_univ _) (by decide)
    (Set.empty_subset _) (Set.notMem_empty _) fun list => ?_
  have hread : Settles hook sort level ∅ {listName}
      (ListBox.selected (level.child listName)).get :=
    .get (Path.prefix_child _ _)
  exact hread.reads_bind (fun selected => .pure _) (Set.mem_univ _) (Set.notMem_empty _)

theorem todoList_settled (hfield : ∀ prompt, (Blueprint.field prompt).keepsOnly sort = true)
    (hlistBox : Blueprint.listBox.keepsOnly sort = true) :
    (todoList interpret).Settled hook sort := by
  intro level
  have hscene : (todoList interpret level).Settles hook sort level
      {TodoList.todosName, listName, TodoList.newItemName, focusName} Set.univ := by
    refine .stateAt_bind rfl (Set.mem_insert _ _) (Set.subset_insert _ _) ?_
    refine settles_subcomponent_bind hinterpret hlistBox (Set.mem_univ _)
      (Set.mem_insert _ _) (Set.subset_insert _ _) (by decide) fun list => ?_
    refine settles_subcomponent_bind hinterpret (hfield _) (Set.mem_univ _)
      (Set.mem_insert _ _) (Set.subset_insert _ _) (by decide) fun entry => ?_
    refine .stateAt_bind rfl rfl (Set.empty_subset _) ?_
    exact .get_entry_bind (Set.mem_univ _) fun current => .pure _
  refine hscene.mono ?_ (Set.Subset.refl _)
  simp only [Set.insert_subset_iff, Set.singleton_subset_iff, Set.mem_ofPred_eq]
  decide

end

/-! ### Navigator -/

namespace Navigator

/-- A longer path has a longer name. -/
theorem length_panelName_append (path : List String) (name : String) :
    (panelName path).text.length < (panelName (path ++ [name])).text.length := by
  have hquoted : 0 < (quoted name).length := by
    rw [quoted, String.length_ofList, List.length_cons]
    omega
  have hbrackets : "[]".length = "[".length + "]".length := rfl
  by_cases hpath : path = []
  · subst hpath
    simp [panelName, Listing.texts, Listing.items, hbrackets]
    omega
  · simp [panelName, Listing.texts, Listing.items, String.intercalate_append_of_ne_nil, hpath]
    omega

theorem panelName_ne {name : Name} (hname : name.text.toList.head? ≠ some '[')
    (path : List String) : panelName path ≠ name := by
  rintro rfl
  exact hname (by simp [panelName, Listing.texts, Listing.items])

/-- The names of columns. -/
def panelNames : Set Name := Set.range panelName

/-- The names of columns that are longer than that of a path. -/
def longerNames (path : List String) : Set Name :=
  {name ∈ panelNames | (panelName path).text.length < name.text.length}

theorem panelName_notMem_longerNames (path : List String) : panelName path ∉ longerNames path :=
  fun h => Nat.lt_irrefl _ h.2

variable (hinterpret : ∀ b : Blueprint, b.keepsOnly sort = true → (interpret b).Settled hook sort)
  (hlist : ∀ l,
    (Blueprint.withStates [(ListBox.itemsName, .items l)] .listBox).keepsOnly sort = true)

include hinterpret hlist

theorem panel_settles (data : Node) (path : List String) :
    (panel interpret level data path).Settles hook sort level {panelName path} {panelName path} := by
  unfold panel
  cases data.access? path with
  | none => exact .pure _
  | some node =>
    cases node with
    | leaf text => exact .pure _
    | directory children =>
      refine settles_subcomponent_bind hinterpret (hlist _) rfl rfl (Set.empty_subset _)
        (Set.notMem_empty _) fun list => ?_
      have hread : Settles hook sort level ∅ {panelName path}
          (ListBox.selected (level.child (panelName path))).get :=
        .get (Path.prefix_child _ _)
      exact hread.reads_bind (fun selected => .pure _) rfl (Set.notMem_empty _)

/-- The preview goes by an entry with a longer name. -/
theorem previewView_settles (data : Node) (path : List String) (selected : Option String) :
    (previewView interpret level data path selected).Settles hook sort level (longerNames path)
      Set.univ := by
  cases selected with
  | none => exact .pure _
  | some name =>
    refine ((panel_settles hinterpret hlist data (path ++ [name])).bind_pure Panel.view).mono ?_
      (Set.subset_univ _)
    exact Set.singleton_subset_iff.mpr ⟨⟨_, rfl⟩, length_panelName_append path name⟩

/-- The current column and the preview. -/
theorem columns_settle (data : Node) (path : List String) (scene : Panel → View → Scene) :
    (do
      let current ← panel interpret level data path
      let preview ← previewView interpret level data path current.selected
      return scene current preview).Settles hook sort level ({panelName path} ∪ longerNames path)
        Set.univ := by
  refine (panel_settles hinterpret hlist data path).bind (fun current => ?_) (Set.subset_univ _) ?_
  · exact (previewView_settles hinterpret hlist data path current.selected).bind_pure (scene current)
  · rintro _ rfl
    exact panelName_notMem_longerNames path

/-- All three columns. -/
theorem allColumns_settle (data : Node) (path : List String) (scene : View → Panel → View → Scene) :
    (do
      let parent ← parentView interpret level data path
      let current ← panel interpret level data path
      let preview ← previewView interpret level data path current.selected
      return scene parent current preview).Settles hook sort level panelNames Set.univ := by
  have hpanels : {panelName path} ∪ longerNames path ⊆ panelNames :=
    Set.union_subset (Set.singleton_subset_iff.mpr ⟨path, rfl⟩) fun _ h => h.1
  by_cases hpath : path = []
  · subst hpath
    exact (columns_settle hinterpret hlist data [] (scene .empty)).mono hpanels (Set.Subset.refl _)
  · -- the directory above has a shorter name than all that is written after it
    have hparent : (parentView interpret level data path).Settles hook sort level
        {panelName path.dropLast} {panelName path.dropLast} := by
      rw [parentView, if_neg (by simpa using hpath)]
      exact (panel_settles hinterpret hlist data path.dropLast).bind_pure Panel.view
    have hlonger : {panelName path} ∪ longerNames path ⊆ longerNames path.dropLast := by
      have hlength := length_panelName_append path.dropLast (path.getLast hpath)
      rw [List.dropLast_concat_getLast hpath] at hlength
      refine Set.union_subset (Set.singleton_subset_iff.mpr ⟨⟨path, rfl⟩, hlength⟩) fun name h => ?_
      exact ⟨h.1, hlength.trans h.2⟩
    refine (hparent.bind (fun parent => ?_) (Set.subset_univ _) ?_).mono
      (Set.union_subset (Set.singleton_subset_iff.mpr ⟨_, rfl⟩) hpanels) (Set.Subset.refl _)
    · exact columns_settle hinterpret hlist data path (scene parent)
    · rintro _ rfl h
      exact panelName_notMem_longerNames _ (hlonger h)

end Navigator

theorem navigator_settled
    (hinterpret : ∀ b : Blueprint, b.keepsOnly sort = true → (interpret b).Settled hook sort)
    (hlist : ∀ l,
      (Blueprint.withStates [(ListBox.itemsName, .items l)] .listBox).keepsOnly sort = true) :
    (navigator interpret).Settled hook sort := by
  intro level
  have hdata : Navigator.dataName ∉ {Navigator.pathName} ∪ Navigator.panelNames := by
    rintro (h | ⟨path, h⟩)
    · exact absurd (Set.mem_singleton_iff.mp h) (by decide)
    · exact Navigator.panelName_ne (by decide) path h
  have hpath : Navigator.pathName ∉ Navigator.panelNames := by
    rintro ⟨path, h⟩
    exact Navigator.panelName_ne (by decide) path h
  have hscene : (navigator interpret level).Settles hook sort level
      ({Navigator.dataName} ∪ ({Navigator.pathName} ∪ Navigator.panelNames)) Set.univ := by
    rw [navigator_eq]
    refine .stateAt_bind rfl (.inl rfl) Set.subset_union_right ?_
    refine Settles.get_entry.reads_bind (fun data => ?_) (Set.mem_univ _) hdata
    refine .stateAt_bind rfl (.inl rfl) Set.subset_union_right ?_
    refine Settles.get_entry.reads_bind (fun path => ?_) (Set.mem_univ _) hpath
    exact Navigator.allColumns_settle hinterpret hlist data path _
  refine hscene.mono ?_ (Set.Subset.refl _)
  rintro name (rfl | rfl | ⟨path, rfl⟩)
  · decide
  · decide
  · exact Navigator.panelName_ne (by decide) path

/-! ### All of them -/

namespace Blueprint

/-- The widgets and the demonstrations, and such with a seed at their level or one below, that is
not their own component. -/
def isSteady : Blueprint → Bool
  | .codeArea | .listBox | .comboBox | .button | .wrapper | .blank | .counter | .temperature
  | .flight | .wizard | .todo | .navigator => true
  | .seeded path _ _ =>
    match path.segments with
    | [name] | [name, _] => name ≠ componentName
    | _ => false
  | _ => false

theorem isSteady_field (prompt : String) : (field prompt).keepsOnly isSteady = true := by
  have hpath : (Path.ofString CodeArea.promptName).segments = ["prompt"] := by decide +kernel
  simp [field, styledField, withStates, keepsOnly, isSteady, Value.keepsOnly, hpath, componentName]

theorem isSteady_list (l : Option Items) :
    (withStates [(ListBox.itemsName, .items l)] .listBox).keepsOnly isSteady = true := by
  have hpath : (Path.ofString ListBox.itemsName).segments = ["items"] := by decide +kernel
  simp [withStates, keepsOnly, isSteady, Value.keepsOnly, hpath, componentName]

theorem isSteady_labelled (label : String) (press : Press) :
    (Button.labelled label press).keepsOnly isSteady = true := by
  have hlabel : (Path.ofString Button.labelName).segments = ["label"] := by decide +kernel
  have hpress : (Path.ofString Button.pressName).segments = ["on-press"] := by decide +kernel
  simp [Button.labelled, withStates, keepsOnly, isSteady, Value.keepsOnly, hlabel, hpress,
    componentName]

/-- Where a steady component has its seed. -/
theorem exists_of_isSteady_seeded {path : Path} {v : Value} {inner : Blueprint}
    (h : isSteady (.seeded path v inner) = true) :
    ∃ name : Name, name ≠ componentName ∧ [name.text] <+: path.segments ∧ path.length ≤ 2 := by
  have hnonempty := path.ne_empty
  rw [Path.length]
  simp only [isSteady] at h
  split at h
  · rename_i name hsegments
    rw [hsegments] at hnonempty ⊢
    exact ⟨⟨name, hnonempty name (by simp)⟩,
      fun heq => of_decide_eq_true h (congrArg Name.text heq), List.prefix_refl _, by simp⟩
  · rename_i name below hsegments
    rw [hsegments] at hnonempty ⊢
    exact ⟨⟨name, hnonempty name (by simp)⟩,
      fun heq => of_decide_eq_true h (congrArg Name.text heq), ⟨[below], rfl⟩, by simp⟩
  · cases h

/-- **Widgets and demonstrations settle.** -/
theorem component_settled (depth : Nat) {b : Blueprint} (hb : b.keepsOnly isSteady = true) :
    (b.component depth).Settled hook isSteady := by
  induction depth generalizing b with
  | zero => exact fun _ => .fault _
  | succ depth ih =>
    have hsort := sort_of_keepsOnly hb
    have hinterpret : ∀ b : Blueprint, b.keepsOnly isSteady = true →
        (component depth b).Settled hook isSteady := fun b hb => ih hb
    cases b with
    | codeArea => exact codeArea_settled
    | listBox => exact listBox_settled
    | comboBox => exact comboBox_settled hinterpret rfl rfl
    | button => exact button_settled
    | wrapper => exact wrapper_settled hinterpret rfl
    | blank => exact still_settled .empty
    | counter => exact counter_settled hinterpret isSteady_labelled
    | temperature => exact temperature_settled hinterpret isSteady_field
    | flight => exact flight_settled hinterpret isSteady_field isSteady_list isSteady_labelled
    | wizard => exact wizard_settled hinterpret isSteady_list
    | todo => exact todoList_settled hinterpret isSteady_field rfl
    | navigator => exact navigator_settled hinterpret isSteady_list
    | seeded path value inner =>
      simp only [keepsOnly, Bool.and_eq_true] at hb
      obtain ⟨name, hcomponent, hpath, hlength⟩ := exists_of_isSteady_seeded hsort
      exact (ih hb.2).withState hcomponent hpath hlength hb.1.2
    | _ => cases hsort

end Blueprint

end TerminalUI
