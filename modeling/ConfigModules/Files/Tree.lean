import ConfigModules.Files.Basic
/-!
A tree of files in memory, and the resolution of paths in it: names are looked up one by one, links
are followed up to a limit, and a step up leads to the directory that really holds the present one.
-/
namespace ConfigModules

inductive FileNode where
  | file (content : ByteArray)
  | directory (entries : List (String × FileNode))
  | link (target : String)

namespace FileNode

instance : Inhabited FileNode := ⟨.directory []⟩

/-- What a listing says of a node. -/
def listed : FileNode → Option FileKind
  | .file _ => some .file
  | .directory _ => some .directory
  | .link _ => none

def entries : FileNode → List (String × FileNode)
  | .directory entries => entries
  | _ => []

end FileNode

/-- Sets the value of a key, at its place if it has one. -/
def setEntry {α : Type} (key : String) (value : α) : List (String × α) → List (String × α)
  | [] => [(key, value)]
  | (k, v) :: rest => if k = key then (key, value) :: rest else (k, v) :: setEntry key value rest

/-- The nodes passed on the way to a place, the last one first, each with its name. The way starts
in a directory outside the tree, in which no name leads anywhere. -/
abbrev Trail := List (String × FileNode)

namespace Trail

def node : Trail → FileNode
  | [] => .directory []
  | (_, n) :: _ => n

def names (trail : Trail) : List String := (trail.map Prod.fst).reverse

end Trail

/-- The names of a path. A slash at the end stands for one more step, to the directory itself. -/
def pathNames (path : String) : List String :=
  let parts := path.splitToList (· = '/')
  parts.filter (· ≠ "") ++ (if parts.getLast? = some "" then ["."] else [])

/-- The longest name of an entry in bytes. -/
def nameLimit : Nat := 255

/-- How many links one path may lead through. -/
def linkLimit : Nat := 40

/-- Follows names from a place. `follow` goes on at a link, given the trail to it and its target, with
the names that are left. -/
def descend (follow : Trail → String → List String → Except FileFault Trail) :
    Trail → List String → Except FileFault Trail
  | trail, [] => .ok trail
  | trail, name :: names =>
    match trail.node with
    | .directory entries =>
      if name = "." then descend follow trail names
      else if name = ".." then descend follow trail.tail names
      else if name.utf8ByteSize > nameLimit then .error .nameTooLong
      else match entries.lookup name with
        | none => .error .missing
        | some (.link target) => follow ((name, .link target) :: trail) target names
        | some node => descend follow ((name, node) :: trail) names
    | _ => .error .notDirectory

/-- Follows names from a place through at most so many links. The one that the last name may lead to
is followed if asked. A target that starts with a slash leads out of the tree. -/
def resolveNames (followLast : Bool) : (links : Nat) → Trail → List String → Except FileFault Trail
  | 0 => descend fun trail _ names =>
      if !followLast && names.isEmpty then .ok trail else .error .tooManyLinks
  | links + 1 => descend fun trail target names =>
      if !followLast && names.isEmpty then .ok trail
      else resolveNames followLast links (if target.startsWith "/" then [] else trail.tail)
        (pathNames target ++ names)

structure FileTree where
  entries : List (String × FileNode) := []

namespace FileTree

/-- The trail of the working directory. Its name is one that no path spells. -/
def root (t : FileTree) : Trail := [("/", .directory t.entries)]

def locate (t : FileTree) (followLast : Bool) (path : String) : Except FileFault Trail :=
  if path.contains '\x00' then .error .zeroInName
  else if pathLimit ≤ path.utf8ByteSize then .error .nameTooLong
  else if path.isEmpty then .error .missing
  else resolveNames followLast linkLimit (if path.startsWith "/" then [] else t.root) (pathNames path)

def resolve (t : FileTree) (path : String) : Except FileFault Trail := t.locate true path

def entry (t : FileTree) (path : String) : Except FileFault (Option FileKind) := do
  return (← t.locate false path).node.listed

def kind (t : FileTree) (path : String) : Except FileFault FileKind := do
  match (← t.resolve path).node with
  | .file _ => .ok .file
  | .directory _ => .ok .directory
  | .link _ => .ok .other

def read (t : FileTree) (path : String) : Except FileFault ByteArray := do
  match (← t.resolve path).node with
  | .file content => .ok content
  | .directory _ => .error .isDirectory
  | .link _ => .error .tooManyLinks

def list (t : FileTree) (path : String) : Except FileFault Listing := do
  match (← t.resolve path).node with
  | .directory entries => .ok { entries := entries.map fun (name, node) => ⟨name, node.listed⟩ }
  | _ => .error .notDirectory

def place (t : FileTree) (path : String) : Except FileFault String := do
  return "/".intercalate (← t.resolve path).names

/-- The tree as a file system that answers at once. -/
def access (t : FileTree) : FileAccess Id where
  kind := t.kind
  entry := t.entry
  read := t.read
  list := t.list
  place := t.place

end FileTree

end ConfigModules
