import ConfigModules.Value
import ConfigModules.Yaml.Tree
/-!
From document trees to values: tags are dropped and keys become property names. A key that is no
scalar has no name, and two keys must not have the same one. The first fault in reading order is
reported with the steps to the mapping that holds the key.
-/
namespace ConfigModules

/-- A step from a value to a part of it. -/
inductive ValueStep where
  | item (i : Nat)
  | field (name : String)
deriving DecidableEq, Repr

def ValueStep.text : ValueStep → String
  | .item i => "[" ++ toString i ++ "]"
  | .field name => "." ++ name

inductive KeyKind where
  | sequence
  | mapping
deriving DecidableEq, Repr

def KeyKind.text : KeyKind → String
  | .sequence => "sequence"
  | .mapping => "mapping"

inductive KeyProblem where
  | unsupported (kind : KeyKind)
  | duplicate (name : String)
deriving DecidableEq, Repr

/-- A key problem and the steps to the mapping that has it. -/
structure KeyFault where
  steps : List ValueStep
  problem : KeyProblem
deriving DecidableEq, Repr

/-- The same fault seen from one step further out. -/
def KeyFault.under (step : ValueStep) (f : KeyFault) : KeyFault := { f with steps := step :: f.steps }

namespace Number

/-- The integer of 64 bits without a sign that a number is, if it is one. -/
def unsigned? : Number → Option UInt64
  | .unsigned n => some n
  | _ => none

/-- The same with a sign. -/
def signed? : Number → Option Int64
  | .unsigned n => if n.toNat < Nat.pow 2 63 then some n.toInt64 else none
  | .signed i => some i
  | .real _ => none

/-- The number of a value from that of a tree: an integer without a sign if it is one, else one with a
sign, else a double. -/
def ofTree (n : Number) : Number :=
  match n.unsigned?, n.signed? with
  | some u, _ => .unsigned u
  | none, some i => .signed i
  | none, none => .real n.asDouble

/-- Trees tell the same three forms of numbers apart. -/
@[simp] theorem ofTree_eq (n : Number) : n.ofTree = n := by cases n <;> rfl

end Number

namespace Yaml.Tree

/-- The property name of a key, tags apart. -/
def propertyName : Tree → Except KeyProblem String
  | .string s => .ok s
  | .null => .ok ""
  | .boolean b => .ok (if b then "true" else "false")
  | .number n => .ok n.ofTree.propertyKey
  | .tagged _ key => propertyName key
  | .sequence _ => .error (.unsupported .sequence)
  | .mapping _ => .error (.unsupported .mapping)

mutual

def toValue : Tree → Except KeyFault Value
  | .null => .ok .null
  | .boolean b => .ok (.boolean b)
  | .number n => .ok (.number n.ofTree)
  | .string s => .ok (.string s)
  | .sequence items =>
    match itemValues items 0 [] with
    | .ok values => .ok (.sequence values)
    | .error f => .error f
  | .mapping entries =>
    match entryValues entries ∅ with
    | .ok m => .ok (Value.ofMapping m)
    | .error f => .error f
  | .tagged _ content => content.toValue

/-- The values of elements from an index on; `done` has those before, the latest first. -/
def itemValues : List Tree → (index : Nat) → (done : List Value) → Except KeyFault (List Value)
  | [], _, done => .ok done.reverse
  | t :: ts, index, done =>
    match t.toValue with
    | .ok v => itemValues ts (index + 1) (v :: done)
    | .error f => .error (f.under (.item index))

/-- Adds entries to a mapping. The key comes first, then its value, then the look for the same name
among the entries before. -/
def entryValues : List (Tree × Tree) → Mapping Value → Except KeyFault (Mapping Value)
  | [], m => .ok m
  | (k, t) :: es, m =>
    match k.propertyName with
    | .error problem => .error ⟨[], problem⟩
    | .ok name =>
      match t.toValue with
      | .error f => .error (f.under (.field name))
      | .ok v => if m.isNew name then entryValues es (m.insertNew name v) else .error ⟨[], .duplicate name⟩

end

@[simp] theorem toValue_number (n : Number) : (Tree.number n).toValue = .ok (.number n) := by
  rw [toValue, n.ofTree_eq]

end Yaml.Tree

end ConfigModules
