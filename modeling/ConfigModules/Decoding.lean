import ConfigModules.Conversion
import ConfigModules.Yaml.Document
import ConfigModules.Yaml.Merge
import ConfigModules.Text.Whitespace
/-!
Decoding a YAML source into one value. Every document is loaded, and merged if asked, before any is
converted, so faults of the text win over faults of keys and over the count of documents.
-/
namespace ConfigModules

/-- What becomes of a source with more than one document. -/
inductive MultiDocument where
  | reject
  /-- Every document becomes an element of a sequence. -/
  | array
deriving DecidableEq, Repr

structure DecodeOptions where
  multiDocument : MultiDocument := .reject
  /-- Whether merge keys are resolved. -/
  mergeKeys : Bool := false
deriving DecidableEq, Repr

inductive DecodeError where
  | malformed (fault : Yaml.LoadFault)
  | multipleDocuments (count : Nat)
  | badKey (root : List ValueStep) (fault : KeyFault)

namespace DecodeError

/-- The text of a path from the root of the answer. -/
def path (steps : List ValueStep) : String := "$" ++ String.join (steps.map ValueStep.text)

def message : DecodeError → String
  | .malformed fault => fault.message
  | .multipleDocuments count =>
    "stream contains " ++ toString count ++ " documents, expected at most one"
  | .badKey root ⟨steps, .unsupported kind⟩ =>
    kind.text ++ " used as a mapping key at " ++ path (root ++ steps)
  | .badKey root ⟨steps, .duplicate name⟩ =>
    "duplicate key " ++ Quotation.text name ++ " at " ++ path (root ++ steps)

/-- The place of a fault in the source as line and column from one, if it has one. -/
def location? : DecodeError → Option (Nat × Nat)
  | .malformed fault => fault.mark?.map fun m => (m.line + 1, m.column + 1)
  | _ => none

end DecodeError

/-- Whether some line holds more than white space and a comment. -/
def hasContentFrom : (inComment : Bool) → List Char → Bool
  | _, [] => false
  | inComment, c :: cs =>
    if c = '\n' then hasContentFrom false cs
    else if inComment || isWhitespace c then hasContentFrom inComment cs
    else if c = '#' then hasContentFrom true cs
    else true

/-- Whether a source holds more than byte order marks at its start, blank lines and comments. -/
def hasContent (source : List Char) : Bool :=
  hasContentFrom false (source.dropWhile (· = Yaml.byteOrderMark))

/-- The tree of a document, merged if asked. -/
def loadTree (mergeKeys : Bool) (d : Yaml.Document) : Except Yaml.LoadFault Yaml.Tree :=
  match d.tree with
  | .error e => .error e
  | .ok t => if mergeKeys then t.merged.mapError .merge else .ok t

/-- The trees of all documents, or the fault of the first that has one. -/
def loadTrees (mergeKeys : Bool) : List Yaml.Document → Except Yaml.LoadFault (List Yaml.Tree)
  | [] => .ok []
  | d :: ds =>
    match loadTree mergeKeys d with
    | .error e => .error e
    | .ok t =>
      match loadTrees mergeKeys ds with
      | .error e => .error e
      | .ok ts => .ok (t :: ts)

/-- The value of one document, its path beginning with `root`. -/
def documentValue (root : List ValueStep) (t : Yaml.Tree) : Except DecodeError Value :=
  t.toValue.mapError (.badKey root)

def documentValues : Nat → List Yaml.Tree → Except DecodeError (List Value)
  | _, [] => .ok []
  | i, t :: ts => do
    let v ← documentValue [.item i] t
    let vs ← documentValues (i + 1) ts
    return v :: vs

/-- The value of the documents of a source under a policy. -/
def combine (policy : MultiDocument) (trees : List Yaml.Tree) : Except DecodeError Value :=
  match policy, trees with
  | .array, ts => return .sequence (← documentValues 0 ts)
  | .reject, [] => .ok .null
  | .reject, [t] => documentValue [] t
  | .reject, ts => .error (.multipleDocuments ts.length)

def decodeChars (options : DecodeOptions) (source : List Char) : Except DecodeError Value :=
  let documents := if hasContent source then Yaml.Document.ofSource source else []
  match loadTrees options.mergeKeys documents with
  | .error e => .error (.malformed e)
  | .ok trees => combine options.multiDocument trees

def decode (options : DecodeOptions) (source : String) : Except DecodeError Value :=
  decodeChars options source.toList

end ConfigModules
