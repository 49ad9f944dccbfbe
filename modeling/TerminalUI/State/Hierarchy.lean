import TerminalUI.Text.Listing

/-!
# Hierarchies

A hierarchy of named nodes, such as the directories and files of a disk. A path of names leads
through directories to a node.
-/

namespace TerminalUI

mutual

/-- A node of a hierarchy: a text, or a directory of named nodes. -/
inductive Node where
  | leaf (text : String)
  | directory (children : Folder)

/-- Named nodes, sorted by name. -/
inductive Folder where
  | empty
  | entry (name : String) (node : Node) (rest : Folder)

end

namespace Folder

/-- The folder with a node under a name, in the place of one that was there before. -/
def insert (name : String) (node : Node) : Folder → Folder
  | .empty => .entry name node .empty
  | .entry k v rest =>
    if name = k then .entry name node rest
    else if name < k then .entry name node (.entry k v rest)
    else .entry k v (insert name node rest)

/-- The folder of the given nodes; of several with one name, the last. -/
def ofList (nodes : List (String × Node)) : Folder :=
  nodes.foldl (fun f (name, node) => f.insert name node) .empty

/-- The nodes with their names, in order. -/
def toList : Folder → List (String × Node)
  | .empty => []
  | .entry k v rest => (k, v) :: rest.toList

end Folder

namespace Node

/-- Is the node a directory? -/
def isDirectory : Node → Bool
  | .directory _ => true
  | .leaf _ => false

/-- The node that a list of names leads to. -/
def access? : Node → List String → Option Node
  | n, [] => some n
  | .leaf _, _ :: _ => none
  | .directory children, name :: names =>
    match children.toList.lookup name with
    | some n => n.access? names
    | none => none

mutual

/-- The node as a listing. -/
def listing : Node → String
  | .leaf text => Listing.call "Leaf" [quoted text]
  | .directory children => Listing.call "Dir" [Listing.entries (folderListing children)]

/-- The names of a folder, each with its node as a listing. -/
def folderListing : Folder → List (String × String)
  | .empty => []
  | .entry k v rest => (k, listing v) :: folderListing rest

end

end Node

end TerminalUI
