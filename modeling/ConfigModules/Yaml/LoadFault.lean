import ConfigModules.Yaml.Resolution
import ConfigModules.Text.Quotation
/-!
Why a source does not give document trees: a fault of the text, a node without a value, a limit, or
a merge that cannot be done. `LoadFault.message` is the whole text, with the path to the node and
its place where the fault has them.
-/
namespace ConfigModules.Yaml

/-- A step from a collection to a node in it. The value under a key that is no scalar has no name. -/
inductive PathStep where
  | index (i : Nat)
  | key (text : String)
  | unnamed
deriving DecidableEq, Repr

/-- The text of a path, whose last step comes first. The root is a dot, left out before a key. -/
def pathText : List PathStep → String
  | [] => "."
  | .index i :: outer => pathText outer ++ "[" ++ toString i ++ "]"
  | .key k :: outer => (if outer.isEmpty then "" else pathText outer ++ ".") ++ k
  | .unnamed :: outer => (if outer.isEmpty then "" else pathText outer ++ ".") ++ "?"

inductive NodeFault where
  | scalar (fault : ScalarFault)
  | duplicateEntry (key : Tree)

def ScalarKind.text : ScalarKind → String
  | .boolean => "a boolean"
  | .integer => "an integer"
  | .real => "a float"
  | .null => "null"

def integerText (i : Int) : String := String.ofList (Number.integerChars i)

def ScalarFault.text : ScalarFault → String
  | .wideInteger i =>
    "invalid type: integer \x60" ++ integerText i ++ "\x60 as " ++ (if i < 0 then "i128" else "u128")
      ++ ", expected any YAML value"
  | .mismatch text wanted =>
    "invalid value: string " ++ Quotation.text text ++ ", expected " ++ wanted.text

def numberText : Number → String
  | .real x => String.ofList (Layout.document.chars x)
  | n => n.text

def NodeFault.text : NodeFault → String
  | .scalar fault => fault.text
  | .duplicateEntry key =>
    "duplicate entry " ++ match key with
      | .null => "with null key"
      | .boolean b => "with key \x60" ++ (if b then "true" else "false") ++ "\x60"
      | .number n => "with key " ++ numberText n
      | .string s => "with key " ++ Quotation.text s
      | _ => "in YAML map"

inductive MergeFault where
  | scalar
  | scalarElement
  | sequenceElement
  | tagged
deriving DecidableEq, Repr

def MergeFault.text : MergeFault → String
  | .scalar => "expected a mapping or list of mappings for merging, but found scalar"
  | .scalarElement => "expected a mapping for merging, but found scalar"
  | .sequenceElement => "expected a mapping for merging, but found sequence"
  | .tagged => "unexpected tagged value in merge"

inductive LoadFault where
  | source (fault : Fault)
  | node (path : List PathStep) (mark : Mark) (fault : NodeFault)
  | tooDeep (mark : Mark)
  | tooManyAliases
  | unfinished
  | merge (fault : MergeFault)

namespace LoadFault

def placed (text : String) (m : Mark) : String :=
  if m.isInside then text ++ " at " ++ m.text else text

def message : LoadFault → String
  | .source fault => fault.message
  | .node path mark fault =>
    let steps := pathText path
    placed ((if steps = "." then "" else steps ++ ": ") ++ fault.text) mark
  | .tooDeep mark => placed "recursion limit exceeded" mark
  | .tooManyAliases => "repetition limit exceeded"
  | .unfinished => "EOF while parsing a value"
  | .merge fault => fault.text

/-- Where the fault was found, if that is known. -/
def mark? : LoadFault → Option Mark
  | .source fault => some fault.mark
  | .node _ mark _ => some mark
  | .tooDeep mark => some mark
  | _ => none

end LoadFault

end ConfigModules.Yaml
