import ConfigModules.Files.Basic
/-!
Walking a directory: every file below it, links followed, the entries of each directory in the order
of their names. What cannot be read and links that lead back up are reported in their places. Before a
link to a directory is followed, the directory and those it stands in are opened to be compared; a
fault in that, or in the middle of a listing, does not tell the path it is about.
-/
namespace ConfigModules

inductive WalkFault where
  | unusable (path? : Option String) (fault : FileFault)
  /-- A link that leads to a directory it stands in, given by its path. -/
  | loop (ancestor path : String)
deriving DecidableEq, Repr

namespace WalkFault

/-- The path that a fault tells. -/
def path? : WalkFault → Option String
  | .unusable path? _ => path?
  | .loop _ path => some path

def message : WalkFault → String
  | .unusable (some path) fault => "IO error for operation on " ++ path ++ ": " ++ fault.message
  | .unusable none fault => fault.message
  | .loop ancestor path =>
    "File system loop found: " ++ path ++ " points to an ancestor " ++ ancestor

end WalkFault

inductive WalkItem where
  | file (path : String)
  | fault (fault : WalkFault)
deriving DecidableEq, Repr

namespace FileAccess

variable {m : Type → Type} [Monad m]

/-- The first of some directories that is the one at a place. -/
def sameDirectory? (files : FileAccess m) (place : String) :
    List String → m (Except FileFault (Option String))
  | [] => return .ok none
  | directory :: more => do
    match ← files.place directory with
    | .error fault => return .error fault
    | .ok other => if other = place then return .ok (some directory) else sameDirectory? files place more

/-- The items of an entry, given what its directory says of it. `below` walks a directory. -/
def walkEntry (files : FileAccess m) (below : String → m (List WalkItem)) (directories : List String)
    (path : String) : Option FileKind → m (List WalkItem)
  | some .file => return [.file path]
  | some .directory => below path
  | some .other => return []
  | none => do
    match ← files.kind path with
    | .error fault => return [.fault (.unusable (some path) fault)]
    | .ok .file => return [.file path]
    | .ok .other => return []
    | .ok .directory =>
      match ← files.place path with
      | .error fault => return [.fault (.unusable none fault)]
      | .ok place =>
        match ← files.sameDirectory? place directories with
        | .error fault => return [.fault (.unusable none fault)]
        | .ok (some ancestor) => return [.fault (.loop ancestor path)]
        | .ok none => below path

def walkEntries (files : FileAccess m) (below : String → m (List WalkItem)) (directories : List String)
    (directory : String) : List DirectoryEntry → m (List WalkItem)
  | [] => return []
  | entry :: more => do
    let items ← files.walkEntry below directories (childPath directory entry.name) entry.kind
    return items ++ (← walkEntries files below directories directory more)

/-- What cut a listing short comes before its entries. -/
def listingFaults (listing : Listing) : List WalkItem :=
  listing.fault?.toList.map fun fault => .fault (.unusable none fault)

/-- The items of a directory inside others, the innermost first. A path gets longer with each level,
so one at the last level is too long to be listed. -/
def walkDirectory (files : FileAccess m) : (levels : Nat) → (outer : List String) → String →
    m (List WalkItem)
  | 0, _, directory => return [.fault (.unusable (some directory) .nameTooLong)]
  | levels + 1, outer, directory => do
    match ← files.list directory with
    | .error fault => return [.fault (.unusable (some directory) fault)]
    | .ok listing =>
      let items ← files.walkEntries (walkDirectory files levels (directory :: outer))
        (directory :: outer) directory (listing.entries.mergeSort fun a b => a.name ≤ b.name)
      return listingFaults listing ++ items

/-- The items of what a path names. A link there is followed like any other. -/
def walk (files : FileAccess m) (path : String) : m (List WalkItem) := do
  match ← files.entry path with
  | .error fault => return [.fault (.unusable (some path) fault)]
  | .ok kind? => files.walkEntry (files.walkDirectory pathLimit []) [] path kind?

end FileAccess

end ConfigModules
