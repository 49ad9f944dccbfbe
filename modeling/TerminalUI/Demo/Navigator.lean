import TerminalUI.Widget.ListBox

/-!
# Hierarchy navigator

Walks through a hierarchy: three columns show the directory above, the current one and a preview of
what is selected in it. Left goes up and Right goes down. Every directory has a list box of its own,
made when it is first shown and kept under the listing of its path, so it remembers its selection.
-/

namespace TerminalUI

namespace Navigator

/-- The hierarchy. -/
def dataName : Name := ⟨"data", by decide⟩
/-- The path of the current directory. -/
def pathName : Name := ⟨"path", by decide⟩

/-- Named nodes as items of a list; directories stand out. -/
def items (children : List (String × Node)) : Items where
  shown := children.map fun (name, node) =>
    if node.isDirectory then
      ((StyledText.plain name).withForeground .darkGreen).withAttribute .bold
    else .plain name
  listing := Listing.call "Entries"
    [Listing.items (children.map fun (name, node) =>
      Listing.call "" [quoted name, toString node.isDirectory])]

/-- The name under which the list box of a directory is kept. -/
def panelName (path : List String) : Name where
  text := Listing.texts path
  ne_empty := by simp [Listing.texts, Listing.items]

/-- A column: what it shows, and for a directory its handler and the name selected in it. -/
structure Panel where
  view : View
  handler : Option Handler := none
  selected : Option String := none

/-- The column for the node at a path. -/
def panel (interpret : Blueprint → Component) (level : Path) (data : Node) (path : List String) :
    Program Panel := do
  match data.access? path with
  | some (.directory children) =>
    let name := panelName path
    let nodes := children.toList
    let list ← Component.subcomponent interpret level name
      (.withStates [(ListBox.itemsName, .items (some (items nodes)))] .listBox)
    let selected ← (ListBox.selected (level.child name)).get
    return { view := list.view, handler := list.handler, selected := (nodes[selected]?).map Prod.fst }
  | some (.leaf text) => return { view := .plain text }
  | none => return { view := .plain "not found" }

/-- Moves up and down, and gives all else to the current directory. -/
def handler (pathVar : Var (List String)) (path : List String) (current : Panel) : Handler :=
  fun event => do
    if event.isBare .left then
      if path.isEmpty then return .unused
      else
        pathVar.set path.dropLast
        return .consumed
    else
      match event.isBare .right, current.selected with
      | true, some name =>
        pathVar.set (path ++ [name])
        return .consumed
      | _, _ => current.handler.elim (return .unused) (· event)

/-- A hierarchy to walk through. -/
def sample : Node :=
  let dir (nodes : List (String × Node)) : Node := .directory (.ofList nodes)
  dir [
    ("bin", dir [
      ("cat", .leaf "Concatenate files"),
      ("elvish", .leaf "Elvish shell"),
      ("zsh", .leaf "The Z shell")]),
    ("home", dir [
      ("elf", dir [
        ("bin", dir [
          ("elvish", .leaf "Local Elvish build"),
          ("foo", .leaf "bar")]),
        ("README", .leaf "this is the elf user's home directory.")]),
      ("root", dir [("README", .leaf "this is the root user's home directory.")])]),
    ("README", .leaf "this is the root.")]

end Navigator

/-- Walks through a hierarchy. -/
def navigator (interpret : Blueprint → Component) : Component := fun level => do
  let dataVar ← stateAt level Navigator.dataName (Node.directory .empty)
  let data ← dataVar.get
  let pathVar ← stateAt level Navigator.pathName ([] : List String)
  let path ← pathVar.get
  let parent ← if path.isEmpty then pure View.empty
    else do pure (← Navigator.panel interpret level data path.dropLast).view
  let current ← Navigator.panel interpret level data path
  let preview ← match current.selected with
    | some name => do pure (← Navigator.panel interpret level data (path ++ [name])).view
    | none => pure View.empty
  return {
    view := .rows [.plain ("path = " ++ Listing.texts path),
      .columns [parent, current.view, preview] 1] 0
    handler := Navigator.handler pathVar path current }

end TerminalUI
