import ConfigModules.Yaml.LoadFault
/-!
Merge keys. The entry `<<` of a mapping is taken out, the last entry filling its place, and the
entries of the mapping or mappings under it are added unless their keys are there. What was merged
in keeps its own `<<` as an ordinary entry. Values are merged in turn, keys are not.
-/
namespace ConfigModules.Yaml

namespace Merge

/-- A value after merging, or why it cannot be merged. -/
abbrev Outcome := Except MergeFault Tree

def isMergeKey (k : Tree) : Bool := k.same (.string "<<")

/-- Takes out the entry with the merge key; the last entry fills its place. -/
def takeOut {α : Type} (entries : List (Tree × α)) : List (Tree × α) :=
  match entries.findIdx? (fun e => isMergeKey e.1), entries.getLast? with
  | some i, some last => if i + 1 = entries.length then entries.dropLast else (entries.set i last).dropLast
  | _, _ => entries

/-- Adds the entries whose keys are not there yet. -/
def addMissing {α : Type} (entries added : List (Tree × α)) : List (Tree × α) :=
  added.foldl (fun es e => if es.any (fun f => e.1.same f.1) then es else es ++ [e]) entries

/-- All values, or the fault of the last one that has a fault. -/
def allItems : List Outcome → Except MergeFault (List Tree)
  | [] => .ok []
  | x :: xs => do
    let ts ← allItems xs
    let t ← x
    return t :: ts

def allEntries : List (Tree × Outcome) → Except MergeFault (List (Tree × Tree))
  | [] => .ok []
  | (k, x) :: xs => do
    let es ← allEntries xs
    let v ← x
    return (k, v) :: es

/-- A mapping from its own entries and the entries of the mappings merged into it. -/
def mapping (own : List (Tree × Outcome)) (sources : List (List (Tree × Outcome))) : Outcome := do
  return .mapping (← allEntries (sources.foldl addMissing (takeOut own)))

end Merge

open Merge

mutual

def Tree.merged : Tree → Outcome
  | .sequence items => do return .sequence (← allItems (mergedItems items))
  | .mapping entries => do mapping (ownEntries entries) (← mergeSources entries)
  | .tagged tag content => do return .tagged tag (← content.merged)
  | .null => .ok .null
  | .boolean b => .ok (.boolean b)
  | .number n => .ok (.number n)
  | .string s => .ok (.string s)

def mergedItems : List Tree → List Outcome
  | [] => []
  | t :: ts => t.merged :: mergedItems ts

def mergedEntries : List (Tree × Tree) → List (Tree × Outcome)
  | [] => []
  | (k, v) :: es => (k, v.merged) :: mergedEntries es

/-- The same for the entries of a mapping itself, whose merge entry will be taken out. -/
def ownEntries : List (Tree × Tree) → List (Tree × Outcome)
  | [] => []
  | (k, v) :: es => (k, if isMergeKey k then .ok .null else v.merged) :: ownEntries es

/-- The entries of the mappings that a mapping merges, in order. -/
def mergeSources : List (Tree × Tree) → Except MergeFault (List (List (Tree × Outcome)))
  | [] => .ok []
  | (k, v) :: es => if isMergeKey k then sourcesOf v else mergeSources es

/-- The mappings that a value under the merge key gives. -/
def sourcesOf : Tree → Except MergeFault (List (List (Tree × Outcome)))
  | .mapping entries => .ok [mergedEntries entries]
  | .sequence items => elementSources items
  | .tagged _ _ => .error .tagged
  | _ => .error .scalar

/-- The same for a sequence of mappings. -/
def elementSources : List Tree → Except MergeFault (List (List (Tree × Outcome)))
  | [] => .ok []
  | .mapping entries :: ts => do return mergedEntries entries :: (← elementSources ts)
  | .sequence _ :: _ => .error .sequenceElement
  | .tagged _ _ :: _ => .error .tagged
  | _ :: _ => .error .scalarElement

end

end ConfigModules.Yaml
