import TerminalUI.Proofs.Application.Machine
import TerminalUI.Proofs.Demo.Lists
import TerminalUI.Proofs.Demo.Settles
import TerminalUI.Proofs.Text.Listing

/-!
# Walks through a hierarchy

The navigator keeps a list box for each directory that it has shown, under the listing of the path
to it. Different paths have different listings, so a list box belongs to one directory, and it keeps
its selection while others are shown and moved through (`Navigator.Keeps`). The name that a walk
goes on with is the selected one in the current directory, so every walk stays within the hierarchy.

* `Navigator.Ready` : what the tree holds, with a valid selection for each directory that was shown;
* `Navigator.Goes` : what becomes of an event;
* `Navigator.Live.exists_dispatch` : a navigator goes somewhere or stays for every event.
-/

namespace TerminalUI

/-! ### Paths through a hierarchy -/

namespace Node

variable {top : Node} {path : List String} {name : String} {children : Folder}

theorem access?_append (top : Node) (path names : List String) :
    top.access? (path ++ names) = (top.access? path).bind (·.access? names) := by
  induction path generalizing top with
  | nil => simp [access?]
  | cons name path ih =>
    cases top with
    | leaf => simp [access?]
    | directory children =>
      simp only [List.cons_append, access?]
      cases children.toList.lookup name with
      | none => rfl
      | some node => exact ih node

theorem isSome_access?_dropLast (h : (top.access? path).isSome) :
    (top.access? path.dropLast).isSome := by
  rcases List.eq_nil_or_concat path with rfl | ⟨front, name, rfl⟩
  · exact h
  · rw [List.concat_eq_append, access?_append] at h
    rw [List.concat_eq_append, List.dropLast_concat]
    exact Option.isSome_of_isSome_bind h

/-- The names in a directory lead to nodes. -/
theorem isSome_access?_append (h : top.access? path = some (.directory children)) {i : Nat}
    (hname : (children.toList[i]?).map Prod.fst = some name) :
    (top.access? (path ++ [name])).isSome := by
  obtain ⟨entry, hentry, rfl⟩ := Option.map_eq_some_iff.1 hname
  have hmem := List.mem_of_getElem? hentry
  rw [access?_append, h, Option.bind_some, access?]
  cases hlookup : children.toList.lookup entry.1 with
  | none => simpa using List.lookup_eq_none_iff.1 hlookup entry hmem
  | some node => rfl

end Node

namespace Navigator

/-! ### The tree -/

variable {keymap : CodeArea.Keymap} {hook : Option Hook} {interpret : Blueprint → Component}
  {level : Path} {t t' t'' : Tree} {journal : List JournalEntry} {top : Node}
  {path path' p : List String} {children : Folder} {i j : Nat} {column : Panel} {event : Event}
  {action : Action}

theorem panelName_injective : Function.Injective panelName :=
  fun _ _ h => Listing.texts_injective (congrArg Name.text h)

/-- The items of the list box of a directory. -/
def itemsOf (children : Folder) : Option Items := some (items children.toList)

theorem size_itemsOf (children : Folder) :
    ListBox.size (itemsOf children) = children.toList.length := by
  simp [ListBox.size, itemsOf, Items.size, items]

/-- The tree has the selection for the directory at a path. -/
def Stores (level : Path) (t : Tree) (p : List String) (i : Nat) : Prop :=
  t.resolve (ListBox.selected (level.child (panelName p))).path = some (.index i)

theorem Stores.eq (h : Stores level t p i) (h' : Stores level t p j) : i = j := by
  rw [Stores, h, Option.some.injEq, Value.index.injEq] at h'
  exact h'

/-- All selections are as before; there may be new ones. -/
def Keeps (level : Path) (t t' : Tree) : Prop :=
  ∀ p i, Stores level t p i → Stores level t' p i

theorem Keeps.refl (level : Path) (t : Tree) : Keeps level t t := fun _ _ h => h

theorem Keeps.trans (h : Keeps level t t') (h' : Keeps level t' t'') : Keeps level t t'' :=
  fun p i hp => h' p i (h p i hp)

theorem Stores.beside {names : Set Name} (h : Stores level t p i)
    (hsame : t.SameBeside level names t') (hfree : panelName p ∉ names) : Stores level t' p i :=
  (hsame.resolve_grandchild hfree _).trans h

/-- What the tree has under the name of a path: nothing, or the list box of the directory there,
with a selection in it. -/
inductive PanelAt (level : Path) (top : Node) (t : Tree) (p : List String) : Prop where
  | missing (h : t.resolve (level.child (panelName p)) = none)
  | made {children : Folder} {i : Nat} (haccess : top.access? p = some (.directory children))
    (hvalid : i < max 1 children.toList.length)
    (hlist : t.HasListBox (itemsOf children) level (panelName p) (itemsOf children) i)

theorem PanelAt.beside {names : Set Name} (h : PanelAt level top t p)
    (hsame : t.SameBeside level names t') (hfree : panelName p ∉ names) :
    PanelAt level top t' p := by
  cases h with
  | missing h => exact .missing ((hsame.resolve_child hfree).trans h)
  | made haccess hvalid hlist =>
    exact .made haccess hvalid (hlist.beside hsame hfree)

/-- A scene makes the list box of a directory, with the selection that is there, if one is. -/
theorem PanelAt.exists_offers (h : PanelAt level top t p)
    (haccess : top.access? p = some (.directory children)) :
    ∃ i < max 1 children.toList.length,
      t.OffersListBox (itemsOf children) level (panelName p) (itemsOf children) i ∧
      ∀ j, Stores level t p j → j = i := by
  cases h with
  | missing h =>
    refine ⟨0, by omega, Tree.offersListBox_of_eq_none h _, fun j hj => ?_⟩
    rw [Stores, ListBox.selected, Tree.resolve_child_of_resolve_eq_none h] at hj
    cases hj
  | made haccess' hvalid hlist =>
    obtain rfl : _ = children := by simpa using haccess'.symm.trans haccess
    exact ⟨_, hvalid, hlist.offers, fun j hj => hj.eq hlist.ready.selected⟩

/-- The tree holds the hierarchy and the path, which leads to a node, and the list boxes of the
directories that were shown. -/
structure Ready (level : Path) (top : Node) (t : Tree) (path : List String) : Prop where
  resolve_data : t.resolve (level.child dataName) = some (.node top)
  resolve_path : t.resolve (level.child pathName) = some (.strings path)
  access : (top.access? path).isSome
  panels : ∀ p, PanelAt level top t p

theorem Ready.exists_map (h : Ready level top t path) : ∃ m, t.resolve level = some (.map m) :=
  Tree.exists_map_of_child h.resolve_data

/-- No list box is kept under the names of the other entries. -/
theorem panelName_notMem (p : List String) : panelName p ∉ ({dataName, pathName} : Set Name) := by
  rintro (h | h)
  · exact panelName_ne (by decide) p h
  · exact panelName_ne (by decide) p h

theorem Ready.setPath (h : Ready level top t path) (hsame : t.SameBeside level {pathName} t')
    (hpath : t'.resolve (level.child pathName) = some (.strings path'))
    (haccess : (top.access? path').isSome) : Ready level top t' path' where
  resolve_data := (hsame.resolve_child (by decide)).trans h.resolve_data
  resolve_path := hpath
  access := haccess
  panels p := (h.panels p).beside hsame fun hp => panelName_notMem p (.inr hp)

theorem keeps_of_sameBeside_path (hsame : t.SameBeside level {pathName} t') : Keeps level t t' :=
  fun p _ hp => hp.beside hsame fun hname => panelName_notMem p (.inr hname)

theorem Ready.setPanel (h : Ready level top t path)
    (haccess : top.access? p = some (.directory children))
    (hvalid : i < max 1 children.toList.length) (hsame : t.SameBeside level {panelName p} t')
    (hlist : t'.HasListBox (itemsOf children) level (panelName p) (itemsOf children) i) :
    Ready level top t' path where
  resolve_data := by
    rw [hsame.resolve_child fun hname => panelName_notMem p (.inl hname.symm)]
    exact h.resolve_data
  resolve_path := by
    rw [hsame.resolve_child fun hname => panelName_notMem p (.inr hname.symm)]
    exact h.resolve_path
  access := h.access
  panels q := by
    by_cases hq : q = p
    · rw [hq]
      exact .made haccess hvalid hlist
    · exact (h.panels q).beside hsame fun hname => hq (panelName_injective hname)

/-! ### Columns -/

/-- The column of a node: for a directory, its handler and the name selected in it. -/
inductive Column (level : Path) (top : Node) (t : Tree) (p : List String) : Panel → Prop where
  | directory {view : View} {children : Folder} {i : Nat}
    (haccess : top.access? p = some (.directory children)) (hstores : Stores level t p i) :
    Column level top t p ⟨view, some (Tree.listHandler (level.child (panelName p))),
      (children.toList[i]?).map Prod.fst⟩
  | other {view : View} (haccess : ∀ children, top.access? p ≠ some (.directory children)) :
    Column level top t p ⟨view, none, none⟩

/-- The name selected in a column leads to a node. -/
theorem Column.isSome_access? (h : Column level top t p column) {name : String}
    (hname : column.selected = some name) : (top.access? (p ++ [name])).isSome := by
  cases h with
  | directory haccess => exact Node.isSome_access?_append haccess hname
  | other => cases hname

theorem Column.keeps (h : Column level top t p column) (hkeeps : Keeps level t t') :
    Column level top t' p column := by
  cases h with
  | directory haccess hstores => exact .directory haccess (hkeeps _ _ hstores)
  | other haccess => exact .other haccess

/-- What the blueprints of the list boxes stand for. -/
def InterpretsPanels (interpret : Blueprint → Component) : Prop :=
  ∀ children, interpret (ListBox.blueprint (itemsOf children)) = ListBox.start (itemsOf children)

variable (hook) (journal) in
theorem Ready.exists_run_panel (hinterpret : InterpretsPanels interpret)
    (h : Ready level top t path) (p : List String) :
    ∃ column t', ((panel interpret level top p).run hook).run ⟨t, journal⟩ =
        (.ok column, ⟨t', journal⟩) ∧
      Ready level top t' path ∧ Keeps level t t' ∧ Column level top t' p column := by
  rw [panel]
  cases haccess : top.access? p with
  | none =>
    exact ⟨_, t, rfl, h, .refl level t, .other fun children => by simp [haccess]⟩
  | some node =>
    cases node with
    | leaf text =>
      exact ⟨_, t, rfl, h, .refl level t, .other fun children => by simp [haccess]⟩
    | directory children =>
      obtain ⟨i, hvalid, hoffers, hstored⟩ := (h.panels p).exists_offers haccess
      obtain ⟨m, hm⟩ := h.exists_map
      obtain ⟨view, t', hrun, hlist, hsame⟩ :=
        hoffers.exists_run_subcomponent hook journal (hinterpret children) hm
      refine ⟨⟨view, some (Tree.listHandler (level.child (panelName p))),
        (children.toList[i]?).map Prod.fst⟩, t', ?_, h.setPanel haccess hvalid hsame hlist,
        fun q j hq => ?_, .directory haccess hlist.ready.selected⟩
      · refine (Program.run_bind_of_ok hrun _).trans ?_
        exact Program.run_bind_of_ok (hlist.ready.run_selected hook journal) _
      · by_cases hqp : q = p
        · subst hqp
          rw [hstored j hq]
          exact hlist.ready.selected
        · exact hq.beside hsame fun hname => hqp (panelName_injective hname)

variable (hook) (journal) in
theorem Ready.exists_run_parentView (hinterpret : InterpretsPanels interpret)
    (h : Ready level top t path) :
    ∃ view t', ((parentView interpret level top path).run hook).run ⟨t, journal⟩ =
        (.ok view, ⟨t', journal⟩) ∧ Ready level top t' path ∧ Keeps level t t' := by
  rw [parentView]
  split
  · exact ⟨.empty, t, rfl, h, .refl level t⟩
  · obtain ⟨column, t', hrun, h', hkeeps, -⟩ :=
      h.exists_run_panel hook journal hinterpret path.dropLast
    exact ⟨column.view, t', Program.run_bind_of_ok hrun _, h', hkeeps⟩

variable (hook) (journal) in
theorem Ready.exists_run_previewView (hinterpret : InterpretsPanels interpret)
    (h : Ready level top t path) (selected : Option String) :
    ∃ view t', ((previewView interpret level top path selected).run hook).run ⟨t, journal⟩ =
        (.ok view, ⟨t', journal⟩) ∧ Ready level top t' path ∧ Keeps level t t' := by
  cases selected with
  | none => exact ⟨.empty, t, rfl, h, .refl level t⟩
  | some name =>
    obtain ⟨column, t', hrun, h', hkeeps, -⟩ :=
      h.exists_run_panel hook journal hinterpret (path ++ [name])
    exact ⟨column.view, t', Program.run_bind_of_ok hrun _, h', hkeeps⟩

/-! ### Scenes -/

/-- A scene has the hierarchy and the path, which leads to a node, and makes the list boxes of the
directories that it shows. -/
structure Offers (level : Path) (top : Node) (t : Tree) (path : List String) : Prop where
  exists_map : ∃ m, t.resolve level = some (.map m)
  resolve_data : t.resolve (level.child dataName) = some (.node top) ∨
    t.resolve (level.child dataName) = none ∧ top = .directory .empty
  resolve_path : t.resolve (level.child pathName) = some (.strings path) ∨
    t.resolve (level.child pathName) = none ∧ path = []
  access : (top.access? path).isSome
  panels : ∀ p, PanelAt level top t p

theorem Ready.offers (h : Ready level top t path) : Offers level top t path :=
  ⟨h.exists_map, .inl h.resolve_data, .inl h.resolve_path, h.access, h.panels⟩

variable (hook) (journal) in
theorem Offers.exists_run_scene (hinterpret : InterpretsPanels interpret)
    (h : Offers level top t path) :
    ∃ view column t', ((navigator interpret level).run hook).run ⟨t, journal⟩ =
        (.ok ⟨view, handler ⟨level.child pathName⟩ path column⟩, ⟨t', journal⟩) ∧
      Ready level top t' path ∧ Keeps level t t' ∧ Column level top t' path column := by
  -- the entries of the level
  obtain ⟨m, hm⟩ := h.exists_map
  obtain ⟨t₁, hdata, hdata₁, hsame₁⟩ := exists_run_stateAt hook journal (a := top)
    (.directory .empty) hm h.resolve_data
  obtain ⟨m₁, hm₁⟩ := Tree.exists_map_of_child hdata₁
  have hgetData : ((Var.get (Var.mk (α := Node) (level.child dataName))).run hook).run
      ⟨t₁, journal⟩ = (.ok top, ⟨t₁, journal⟩) := Var.run_get_of_resolve hook hdata₁
  have hpath₁ := hsame₁.resolve_child (show pathName ∉ _ by decide)
  obtain ⟨t₂, hpath, hpath₂, hsame₂⟩ := exists_run_stateAt hook journal (a := path) []
    hm₁ (hpath₁ ▸ h.resolve_path)
  have hgetPath : ((Var.get (Var.mk (α := List String) (level.child pathName))).run hook).run
      ⟨t₂, journal⟩ = (.ok path, ⟨t₂, journal⟩) := Var.run_get_of_resolve hook hpath₂
  have hsame : t.SameBeside level ({dataName} ∪ {pathName}) t₂ := hsame₁.union hsame₂
  have h₂ : Ready level top t₂ path :=
    ⟨(hsame₂.resolve_child (by decide)).trans hdata₁, hpath₂, h.access,
      fun p => (h.panels p).beside hsame (panelName_notMem p)⟩
  have hkeeps₂ : Keeps level t t₂ := fun p _ hp => hp.beside hsame (panelName_notMem p)
  -- the columns
  obtain ⟨parent, t₃, hparent, h₃, hkeeps₃⟩ := h₂.exists_run_parentView hook journal hinterpret
  obtain ⟨column, t₄, hcurrent, h₄, hkeeps₄, hcolumn⟩ :=
    h₃.exists_run_panel hook journal hinterpret path
  obtain ⟨preview, t', hpreview, h', hkeeps⟩ :=
    h₄.exists_run_previewView hook journal hinterpret column.selected
  refine ⟨.rows [.plain ("path = " ++ Listing.texts path),
    .columns [parent, column.view, preview] 1] 0, column, t', ?_, h',
    hkeeps₂.trans (hkeeps₃.trans (hkeeps₄.trans hkeeps)), hcolumn.keeps hkeeps⟩
  rw [navigator_eq]
  refine (Program.run_bind_of_ok hdata _).trans ?_
  refine (Program.run_bind_of_ok hgetData _).trans ?_
  refine (Program.run_bind_of_ok hpath _).trans ?_
  refine (Program.run_bind_of_ok hgetPath _).trans ?_
  refine (Program.run_bind_of_ok hparent _).trans ?_
  refine (Program.run_bind_of_ok hcurrent _).trans ?_
  exact Program.run_bind_of_ok hpreview _

/-! ### Events -/

/-- What becomes of an event, with the name that is selected in the current directory: it goes up or
down, which keeps all selections, or stays, which changes at most that of the current directory.
Left goes up and Right goes down if that is possible. -/
inductive Goes (level : Path) (t : Tree) (path : List String) (selected : Option String)
    (event : Event) : Action → List String → Tree → Prop where
  | up {t' : Tree} (hevent : event = .key (.bare .left)) (hpath : path ≠ [])
    (hkeeps : Keeps level t t') : Goes level t path selected event .consumed path.dropLast t'
  | down {name : String} {t' : Tree} (hevent : event = .key (.bare .right))
    (hname : selected = some name) (hkeeps : Keeps level t t') :
    Goes level t path selected event .consumed (path ++ [name]) t'
  | stays {action : Action} {t' : Tree} (hleft : event = .key (.bare .left) → path = [])
    (hright : event = .key (.bare .right) → selected = none)
    (hkeeps : ∀ p i, p ≠ path → Stores level t p i → Stores level t' p i) :
    Goes level t path selected event action path t'

/-- A scene that follows keeps the selections. -/
theorem Goes.keeps {selected : Option String}
    (h : Goes level t path selected event action path' t') (hkeeps : Keeps level t' t'') :
    Goes level t path selected event action path' t'' := by
  cases h with
  | up hevent hpath h => exact .up hevent hpath (h.trans hkeeps)
  | down hevent hname h => exact .down hevent hname (h.trans hkeeps)
  | stays hleft hright h =>
    exact .stays hleft hright fun p i hne hp => hkeeps p i (h p i hne hp)

variable (hook) (journal) in
theorem Ready.exists_run_setPath (h : Ready level top t path)
    (haccess : (top.access? path').isSome) :
    ∃ t', ((Var.set ⟨level.child pathName⟩ path').run hook).run ⟨t, journal⟩ =
        (.ok (), ⟨t', journal⟩) ∧
      Ready level top t' path' ∧ Keeps level t t' := by
  obtain ⟨m, hm⟩ := h.exists_map
  obtain ⟨t', hrun, hpath, hsame⟩ := Var.exists_run_set_entry hook journal hm path'
  exact ⟨t', hrun, h.setPath hsame hpath haccess, keeps_of_sameBeside_path hsame⟩

variable (journal) in
/-- What the current directory does with an event. -/
theorem Ready.exists_run_column (h : Ready level top t path)
    (hcolumn : Column level top t path column) (keymap : CodeArea.Keymap) (event : Event)
    (hleft : event = .key (.bare .left) → path = [])
    (hright : event = .key (.bare .right) → column.selected = none) :
    ∃ action t', ((column.handler.elim (pure .unused) (· event)).run keymap.hook).run
        ⟨t, journal⟩ = (.ok action, ⟨t', journal⟩) ∧
      Ready level top t' path ∧ Goes level t path column.selected event action path t' := by
  cases hcolumn with
  | other => exact ⟨.unused, t, rfl, h, .stays hleft hright fun _ _ _ hp => hp⟩
  | @directory view children i haccess hstores =>
    cases h.panels path with
    | missing hmissing =>
      -- the selection is in the list box
      rw [Stores, ListBox.selected, Tree.resolve_child_of_resolve_eq_none hmissing] at hstores
      cases hstores
    | made haccess' hvalid hlist =>
      obtain ⟨action, i', t', hrun, hmoves, hlist', hsame⟩ :=
        hlist.exists_run_handler journal keymap event
      refine ⟨action, t', hrun, h.setPanel haccess' ?_ hsame hlist',
        .stays hleft hright ?_⟩
      · rw [← size_itemsOf] at hvalid ⊢
        exact hmoves.lt_max hvalid
      · exact fun p i hne hp => hp.beside hsame fun hname => hne (panelName_injective hname)

variable (journal) in
/-- The navigator goes somewhere or stays for every event. -/
theorem Ready.exists_run_handler (h : Ready level top t path)
    (hcolumn : Column level top t path column) (keymap : CodeArea.Keymap) (event : Event) :
    ∃ action path' t', ((handler ⟨level.child pathName⟩ path column event).run keymap.hook).run
        ⟨t, journal⟩ = (.ok action, ⟨t', journal⟩) ∧
      Ready level top t' path' ∧ Goes level t path column.selected event action path' t' := by
  rw [handler]
  by_cases hleft : event = .key (.bare .left)
  · subst hleft
    rw [if_pos (Event.isBare_iff.2 rfl)]
    by_cases hpath : path = []
    · subst hpath
      exact ⟨.unused, [], t, rfl, h, .stays (fun _ => rfl) (by simp [Key.bare]) fun _ _ _ hp => hp⟩
    · obtain ⟨t', hset, h', hkeeps⟩ := h.exists_run_setPath keymap.hook journal
        (Node.isSome_access?_dropLast h.access)
      refine ⟨.consumed, _, t', ?_, h', .up rfl hpath hkeeps⟩
      rw [if_neg (by simpa using hpath)]
      exact Program.run_bind_of_ok hset _
  · rw [if_neg (mt Event.isBare_iff.1 hleft)]
    have hcurrent (hright : event = .key (.bare .right) → column.selected = none) :=
      h.exists_run_column journal hcolumn keymap event (fun hevent => absurd hevent hleft) hright
    cases hright : event.isBare .right with
    | false =>
      obtain ⟨action, t', hrun, h', hgoes⟩ := hcurrent fun hevent => by
        rw [Event.isBare_iff.2 hevent] at hright
        cases hright
      exact ⟨action, path, t', hrun, h', hgoes⟩
    | true =>
      cases hselected : column.selected with
      | none =>
        obtain ⟨action, t', hrun, h', hgoes⟩ := hcurrent fun _ => hselected
        exact ⟨action, path, t', hrun, h', hselected ▸ hgoes⟩
      | some name =>
        obtain ⟨t', hset, h', hkeeps⟩ :=
          h.exists_run_setPath keymap.hook journal (hcolumn.isSome_access? hselected)
        refine ⟨.consumed, _, t', ?_, h', .down (Event.isBare_iff.1 hright) rfl hkeeps⟩
        exact Program.run_bind_of_ok hset _

/-! ### Walks -/

/-- The application that is a navigator under a keymap. -/
def application (keymap : CodeArea.Keymap) : Application :=
  ⟨Blueprint.navigator.start, keymap.hook⟩

/-- The application is at a path and waits for the next event. -/
structure Live (keymap : CodeArea.Keymap) (top : Node) (w : Embedded) (path : List String) :
    Prop where
  application : w.application = application keymap
  ready : Ready .root top w.tree path
  scene : ∃ view column, w.scene = ⟨view, handler ⟨Path.root.child pathName⟩ path column⟩ ∧
    Column .root top w.tree path column

theorem start_navigator : Blueprint.navigator.start = navigator (Blueprint.component 9999) := by
  have hcomponent (depth : Nat) : Blueprint.navigator.component (depth + 1) =
      navigator (Blueprint.component depth) := rfl
  exact hcomponent 9999

variable (keymap) (journal) in
theorem Offers.exists_run_application (h : Offers .root top t path) :
    ∃ view column t', (application keymap).scene.run ⟨t, journal⟩ =
        (.ok ⟨view, handler ⟨Path.root.child pathName⟩ path column⟩, ⟨t', journal⟩) ∧
      Ready .root top t' path ∧ Keeps .root t t' ∧ Column .root top t' path column := by
  obtain ⟨view, column, t', hscene, h'⟩ := h.exists_run_scene keymap.hook journal
    fun children => ListBox.component_blueprint 9997 (itemsOf children)
  have hinvoke := Component.run_invoke hscene
  rw [← start_navigator] at hinvoke
  exact ⟨_, column, t', hinvoke, h'⟩

variable {w w' : Embedded}

theorem Offers.exists_start (h : Offers .root top t path) (keymap : CodeArea.Keymap) :
    ∃ w, Embedded.start (application keymap) t = .ok w ∧ Live keymap top w path := by
  obtain ⟨view, column, t', hscene, h', -, hcolumn⟩ := h.exists_run_application keymap []
  refine ⟨⟨application keymap, ⟨t', []⟩, _⟩, ?_, rfl, h', view, column, rfl, hcolumn⟩
  rw [Embedded.start, hscene]

/-- A navigator goes somewhere or stays for every event. -/
theorem Live.exists_dispatch (h : Live keymap top w path) (event : Event) :
    ∃ action w' path' column, w.dispatch event = .ok (action, w') ∧ Live keymap top w' path' ∧
      Column .root top w.tree path column ∧
      Goes .root w.tree path column.selected event action path' w'.tree := by
  obtain ⟨view, column, hscene, hcolumn⟩ := h.scene
  obtain ⟨action, path', t₁, hreaction, h₁, hgoes⟩ :=
    h.ready.exists_run_handler w.session.journal hcolumn keymap event
  obtain ⟨view', column', t', hnext, h', hkeeps, hcolumn'⟩ :=
    h₁.offers.exists_run_application keymap w.session.journal
  have hreact : (w.application.react w.scene event).run w.session =
      (.ok action, ⟨t₁, w.session.journal⟩) := by
    rw [h.application, hscene]
    exact hreaction
  rw [← h.application] at hnext
  exact ⟨action, _, path', column, Embedded.dispatch_eq_ok hreact hnext,
    ⟨h.application, h', view', column', rfl, hcolumn'⟩, hcolumn, hgoes.keeps hkeeps⟩

end Navigator

end TerminalUI
