import TerminalUI.Proofs.Program.Settles
import TerminalUI.Proofs.Widget.Portable

/-!
# Widgets settle

A code area, a list box and a combo box make the same scene once more, and write nothing then. The
layers of a code area set the variables that are missing, each of them its own. A combo box makes
its first list before the filter and the list run; that it was made is told by an entry of its own,
so it is not made again.
-/

namespace TerminalUI

open Program

variable {hook : Option Hook} {sort : Blueprint → Bool} {level : Path}

namespace CodeArea

/-- The entries of the core. -/
def coreNames : Set Name :=
  {promptName, rightPromptName, bufferName, pendingName, highlighterName}

theorem core_settles : (core level).Settles hook sort level coreNames coreNames := by
  have hsame := Set.Subset.refl coreNames
  refine .stateAt_bind rfl (by simp [coreNames]) hsame ?_
  refine .stateAt_bind rfl (by simp [coreNames]) hsame ?_
  refine .stateAt_bind rfl (by simp [coreNames]) hsame ?_
  refine .stateAt_bind rfl (by simp [coreNames]) hsame ?_
  refine .stateAt_bind rfl (by simp [coreNames]) (Set.empty_subset _) ?_
  refine .get_entry_bind (by simp [coreNames]) fun b => ?_
  refine .get_entry_bind (by simp [coreNames]) fun overlay => ?_
  refine .get_entry_bind (by simp [coreNames]) fun highlighter => ?_
  refine .ofExcept_bind _ fun shown => ?_
  refine .get_entry_bind (by simp [coreNames]) fun prompt => ?_
  refine .get_entry_bind (by simp [coreNames]) fun rightPrompt => ?_
  exact .pure _

/-- The entries of the layers around the core. -/
def layerNames : Set Name :=
  {simpleName, commandName, smallWordName, streakName, pastingName, pastedName, quotePasteName}

theorem notMem_layerNames {name : Name} (h : name ∈ coreNames) : name ∉ layerNames := by
  simp only [coreNames, Set.mem_insert_iff, Set.mem_singleton_iff] at h
  rcases h with rfl | rfl | rfl | rfl | rfl <;> simp [layerNames, simpleName, commandName,
    smallWordName, streakName, pastingName, pastedName, quotePasteName, promptName,
    rightPromptName, bufferName, pendingName, highlighterName]

theorem componentName_notMem : componentName ∉ coreNames ∪ layerNames := by
  simp [coreNames, layerNames, componentName, simpleName, commandName, smallWordName, streakName,
    pastingName, pastedName, quotePasteName, promptName, rightPromptName, bufferName, pendingName,
    highlighterName]

theorem withAbbreviations_settles :
    (withAbbreviations level).Settles hook sort level (coreNames ∪ layerNames) coreNames := by
  refine core_settles.bind (fun scene => ?_) (Set.Subset.refl _) fun _ => notMem_layerNames
  have hsame := Set.Subset.refl layerNames
  refine .stateAt_bind rfl (by simp [layerNames]) hsame ?_
  refine .stateAt_bind rfl (by simp [layerNames]) hsame ?_
  refine .stateAt_bind rfl (by simp [layerNames]) hsame ?_
  refine .stateAt_bind rfl (by simp [layerNames]) hsame ?_
  exact .pure _

end CodeArea

theorem codeArea_settled : codeArea.Settled hook sort := by
  intro level
  have hsame := Set.Subset.refl CodeArea.layerNames
  have hscene : (codeArea level).Settles hook sort level
      (CodeArea.coreNames ∪ CodeArea.layerNames ∪ CodeArea.layerNames) CodeArea.coreNames := by
    refine CodeArea.withAbbreviations_settles.bind (fun scene => ?_) (Set.Subset.refl _)
      fun _ => CodeArea.notMem_layerNames
    refine .stateAt_bind rfl (by simp [CodeArea.layerNames]) hsame ?_
    refine .stateAt_bind rfl (by simp [CodeArea.layerNames]) hsame ?_
    refine .stateAt_bind rfl (by simp [CodeArea.layerNames]) hsame ?_
    exact .pure _
  rw [Set.union_assoc, Set.union_self] at hscene
  refine hscene.mono (fun name hname => ?_) (Set.subset_univ _)
  rintro rfl
  exact CodeArea.componentName_notMem hname

/-- The entries of a list box. -/
def ListBox.names : Set Name := {itemsName, selectedName, submitName}

theorem listBox_settled : listBox.Settled hook sort := by
  intro level
  have hsame := Set.Subset.refl ListBox.names
  have hscene : (listBox level).Settles hook sort level ListBox.names ListBox.names := by
    refine .stateAt_bind rfl (by simp [ListBox.names]) hsame ?_
    refine .stateAt_bind rfl (by simp [ListBox.names]) hsame ?_
    refine .stateAt_bind rfl (by simp [ListBox.names]) (Set.empty_subset _) ?_
    refine .get_entry_bind (by simp [ListBox.names]) fun l => ?_
    cases l with
    | none => exact .pure _
    | some l =>
      refine .get_entry_bind (by simp [ListBox.names]) fun selected => ?_
      exact .pure _
  refine hscene.mono (fun name hname => ?_) (Set.subset_univ _)
  rintro rfl
  simp [ListBox.names, componentName, ListBox.itemsName, ListBox.selectedName,
    ListBox.submitName] at hname

namespace ComboBox

/-- The entries that the first list is written to. -/
def firstNames : Set Name := {listName, lastFilterName}

/-- Where no list was made, making one lets the tree grow, and tells so. -/
theorem prepared_regenerate {s s' : Session} {content : String} (hs : s.tree.keepsOnly sort = true)
    (habsent : s.tree.resolve (level.child lastFilterName) = none)
    (hrun : ((regenerate (.at level) content).run hook).run s = (.ok (), s')) :
    Tree.Prepared sort level firstNames s.tree s'.tree ∧
      (s'.tree.resolve (level.child lastFilterName)).isSome := by
  obtain ⟨g, s₁, hgenerator, hrun⟩ := Program.exists_of_run_bind_eq_ok hrun
  obtain ⟨⟨⟩, s₂, hitems, hrun⟩ := Program.exists_of_run_bind_eq_ok hrun
  obtain ⟨⟨⟩, s₃, hselected, hlast⟩ := Program.exists_of_run_bind_eq_ok hrun
  have hlist (name : Name) : level.length + 2 ≤ ((level.child listName).child name).length := by
    rw [Settles.length_child, Settles.length_child]
  have h₁ : Tree.Prepared sort level ∅ s.tree s₁.tree :=
    Settles.get_entry.prepared hs hgenerator
  have h₂ : Tree.Prepared sort level {listName} s₁.tree s₂.tree :=
    .of_update h₁.kept rfl (Path.prefix_child _ _) (.inl (hlist _)) (Var.update_of_run_set hitems)
  have h₃ : Tree.Prepared sort level {listName} s₂.tree s₃.tree :=
    .of_update h₂.kept rfl (Path.prefix_child _ _) (.inl (hlist _))
      (Var.update_of_run_set hselected)
  have h₁₃ : Tree.Prepared sort level {listName} s.tree s₃.tree :=
    (h₁.mono (Set.empty_subset _)).trans (h₂.trans h₃)
  have habsent₃ : s₃.tree.resolve (level.child lastFilterName) = none := by
    rw [h₁₃.beside.resolve_below (by decide) (List.prefix_refl _), habsent]
  have hupdate := Var.update_of_run_set hlast
  have h₄ : Tree.Prepared sort level {lastFilterName} s₃.tree s'.tree :=
    .of_update h₃.kept rfl (List.prefix_refl _) (.inr habsent₃) hupdate
  have hself : s'.tree.resolve (level.child lastFilterName) = some (Storable.store content) :=
    (Tree.update_eq_ok_iff.mp hupdate).resolveFrom_self
  refine ⟨(h₁₃.mono ?_).trans (h₄.mono ?_), by rw [hself, Option.isSome_some]⟩
  · exact Set.singleton_subset_iff.mpr (Set.mem_insert _ _)
  · exact Set.singleton_subset_iff.mpr (Set.mem_insert_of_mem _ rfl)

variable (hook) (level) in
theorem run_lastFilter (s : Session) : (((Vars.at level).lastFilter.value?).run hook).run s =
    (.ok (s.tree.resolve (level.child lastFilterName)), s) := rfl

/-- The list that was made is not made again. -/
theorem run_firstList {s : Session} (h : (s.tree.resolve (level.child lastFilterName)).isSome) :
    ((firstList (.at level)).run hook).run s = (.ok (), s) := by
  have hnone : ¬ (s.tree.resolve (level.child lastFilterName)).isNone := by
    simpa [← Option.isSome_iff_ne_none] using h
  rw [firstList, Program.run_bind_of_ok (run_lastFilter hook level s), if_neg hnone]
  rfl

/-- The first list is made only once: that it was made is told by an entry. -/
theorem firstList_settles : (firstList (.at level)).Settles hook sort level firstNames ∅ := by
  have hstep {s s' : Session} (hs : s.tree.keepsOnly sort = true)
      (hrun : ((firstList (.at level)).run hook).run s = (.ok (), s')) :
      Tree.Prepared sort level firstNames s.tree s'.tree ∧
        (s'.tree.resolve (level.child lastFilterName)).isSome := by
    cases hvalue : s.tree.resolve (level.child lastFilterName) with
    | some v =>
      have hsome : (s.tree.resolve (level.child lastFilterName)).isSome := by
        rw [hvalue, Option.isSome_some]
      rw [run_firstList hsome] at hrun
      cases hrun
      exact ⟨.refl hs, hsome⟩
    | none =>
      rw [firstList, Program.run_bind_of_ok (run_lastFilter hook level s), hvalue,
        Option.isNone_none, if_pos rfl] at hrun
      obtain ⟨content, s₁, hcontent, hrun⟩ := Program.exists_of_run_bind_eq_ok hrun
      have hreads : Settles hook sort level ∅ {filterName} (filterContent (.at level)) := by
        refine (Settles.tryGet (Path.prefix_child _ _)).reads_bind (fun r => ?_) rfl
          (Set.notMem_empty _)
        cases r with
        | ok b => exact .pure _
        | error e => exact .pure _
      have h₁ := hreads.prepared hs hcontent
      have habsent : s₁.tree.resolve (level.child lastFilterName) = none := by
        rw [h₁.beside.resolve_below (Set.notMem_empty _) (List.prefix_refl _), hvalue]
      obtain ⟨h₂, hsome⟩ := prepared_regenerate h₁.kept habsent hrun
      exact ⟨(h₁.mono (Set.empty_subset _)).trans h₂, hsome⟩
  refine ⟨⟨fun hs hrun => (hstep hs hrun).1⟩, fun hs hrun _ hgrows => ?_⟩
  refine run_firstList (hgrows _ (Path.prefix_child _ _) ?_ (hstep hs hrun).2)
  rw [Settles.length_child]
  omega

end ComboBox

theorem comboBox_settled {interpret : Blueprint → Component}
    (hinterpret : ∀ b : Blueprint, b.keepsOnly sort = true → (interpret b).Settled hook sort)
    (hcodeArea : Blueprint.codeArea.keepsOnly sort = true)
    (hlistBox : Blueprint.listBox.keepsOnly sort = true) :
    (comboBox interpret).Settled hook sort := by
  intro level
  have hscene : (comboBox interpret level).Settles hook sort level
      ({ComboBox.generatorName} ∪
        (ComboBox.firstNames ∪ {ComboBox.filterName, listName})) Set.univ := by
    rw [comboBox_eq]
    refine .stateAt_bind rfl (.inl rfl) Set.subset_union_right ?_
    refine ComboBox.firstList_settles.bind (fun _ => ?_) (Set.empty_subset _) fun _ h =>
      absurd h (Set.notMem_empty _)
    refine Component.settles_subcomponent_bind hinterpret hcodeArea (Set.mem_univ _)
      (Set.mem_insert _ _) (Set.subset_insert _ _) (by decide) fun filter => ?_
    refine Component.settles_subcomponent_bind hinterpret hlistBox (Set.mem_univ _)
      rfl (Set.empty_subset _) (Set.notMem_empty _) fun list => ?_
    exact .pure _
  refine hscene.mono (fun name hname => ?_) (Set.subset_univ _)
  rintro rfl
  simp [ComboBox.firstNames, componentName, ComboBox.generatorName, ComboBox.filterName,
    listName, ComboBox.lastFilterName] at hname

end TerminalUI
