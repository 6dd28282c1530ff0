import ConfigModules.Number
/-!
The tree of a document, with aliases expanded. Keys of a mapping may be any trees and are distinct.
`Tree.same` tells trees apart as keys: integers and other numbers are never the same, mappings are
compared without regard to order.
-/
namespace ConfigModules.Yaml

inductive Tree where
  | null
  | boolean (b : Bool)
  | number (n : Number)
  | string (s : String)
  | sequence (items : List Tree)
  | mapping (entries : List (Tree × Tree))
  | tagged (tag : String) (content : Tree)
deriving Repr

namespace Tree

instance : Inhabited Tree := ⟨.null⟩

/-- Two numbers that are one key: of the same form and equal, where a NaN equals a NaN. -/
def sameNumber : Number → Number → Bool
  | .unsigned m, .unsigned n => m == n
  | .signed i, .signed j => i == j
  | .real x, .real y => x.numericallyEqual y || (x.isNaN && y.isNaN)
  | _, _ => false

/-- A tag without its bang. -/
def bareTag (tag : String) : List Char :=
  match tag.toList with
  | '!' :: c :: cs => c :: cs
  | cs => cs

mutual

def same : Tree → Tree → Bool
  | .null, .null => true
  | .boolean a, .boolean b => a == b
  | .number a, .number b => sameNumber a b
  | .string a, .string b => a == b
  | .sequence as, .sequence bs => sameItems as bs
  | .mapping as, .mapping bs => as.length == bs.length && allIn as bs
  | .tagged s a, .tagged t b => bareTag s == bareTag t && a.same b
  | _, _ => false

def sameItems : List Tree → List Tree → Bool
  | [], [] => true
  | a :: as, b :: bs => a.same b && sameItems as bs
  | _, _ => false

/-- Whether every entry of the first list is in the second. -/
def allIn : List (Tree × Tree) → List (Tree × Tree) → Bool
  | [], _ => true
  | (k, v) :: as, bs => bs.any (fun b => k.same b.1 && v.same b.2) && allIn as bs

end

def hasKey (k : Tree) (entries : List (Tree × Tree)) : Bool := entries.any fun e => k.same e.1

end Tree

end ConfigModules.Yaml
