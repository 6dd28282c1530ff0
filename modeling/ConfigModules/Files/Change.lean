import ConfigModules.Files.Tree
/-!
Changes of a tree of files: placing a file, directory or link, with the directories above it, and
removing a file or link.
-/
namespace ConfigModules

/-- Sets the node at a place below some entries. Whatever stands on the way and is no directory
becomes one. -/
def setNode (node : FileNode) : List String → List (String × FileNode) → List (String × FileNode)
  | [], entries => entries
  | [name], entries => setEntry name node entries
  | name :: names, entries =>
    let below := (entries.lookup name).elim [] FileNode.entries
    setEntry name (.directory (setNode node names below)) entries

/-- Removes the entry at a place below some entries. -/
def removeNode : List String → List (String × FileNode) → List (String × FileNode)
  | [], entries => entries
  | [name], entries => entries.filter (·.1 ≠ name)
  | name :: names, entries =>
    entries.map fun (k, node) =>
      match node with
      | .directory below => if k = name then (k, .directory (removeNode names below)) else (k, node)
      | _ => (k, node)

/-- Where names lead: as far as they do the real place, and from there on the names themselves. -/
def landing : Trail → List String → List String
  | trail, [] => trail.names
  | trail, name :: names =>
    match resolveNames true linkLimit trail [name] with
    | .ok next => landing next names
    | .error _ => trail.names ++ name :: names

namespace FileTree

/-- The place of a path in the tree, its last name taken as it is. -/
def entryPlace (t : FileTree) (path : String) : List String :=
  let names := pathNames path
  (landing t.root names.dropLast).tail ++ names.getLast?.toList

/-- Sets the content of a file. A link that leads to a file is written through. -/
def writeFile (t : FileTree) (path : String) (content : ByteArray) : FileTree :=
  let place := match t.resolve path with
    | .ok trail => trail.names.tail
    | .error _ => t.entryPlace path
  ⟨setNode (.file content) place t.entries⟩

/-- Makes a directory and those above it, where they are missing. -/
def makeDirectory (t : FileTree) (path : String) : FileTree :=
  match t.resolve path with
  | .ok _ => t
  | .error _ => ⟨setNode (.directory []) (landing t.root (pathNames path)).tail t.entries⟩

def makeLink (t : FileTree) (path target : String) : FileTree :=
  ⟨setNode (.link target) (t.entryPlace path) t.entries⟩

/-- The tree without a file or link, if the path names one. -/
def remove? (t : FileTree) (path : String) : Option FileTree :=
  match (pathNames path).getLast? with
  | none => none
  | some last =>
    match resolveNames true linkLimit t.root (pathNames path).dropLast with
    | .error _ => none
    | .ok trail =>
      match trail.node.entries.lookup last with
      | none => none
      | some (.directory _) => none
      | some _ => some ⟨removeNode (trail.names.tail ++ [last]) t.entries⟩

end FileTree

end ConfigModules
