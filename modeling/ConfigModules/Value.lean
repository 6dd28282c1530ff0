import ConfigModules.Number
import ConfigModules.Mapping
/-!
Values of a document: scalars, sequences, and mappings with text keys. The entries of a mapping
stand in the order of their insertion, and `Value.KeysDistinct` says that no mapping repeats a key.
Order counts in equality because a rendered module shows it.
-/
namespace ConfigModules

inductive Value where
  | null
  | boolean (b : Bool)
  | number (n : Number)
  | string (s : String)
  | sequence (items : List Value)
  | mapping (entries : List (String × Value))
deriving Repr

namespace Value

instance : Inhabited Value := ⟨.null⟩

def kind : Value → String
  | .null => "null"
  | .boolean _ => "boolean"
  | .number _ => "number"
  | .string _ => "string"
  | .sequence _ => "sequence"
  | .mapping _ => "mapping"

def isNull : Value → Bool
  | .null => true
  | _ => false

def ofMapping (m : Mapping Value) : Value := .mapping m.toList

def items? : Value → Option (List Value)
  | .sequence items => some items
  | _ => none

def entries? : Value → Option (List (String × Value))
  | .mapping entries => some entries
  | _ => none

/-- The value under a key, if this is a mapping that has it. -/
def get? (v : Value) (key : String) : Option Value :=
  v.entries?.bind (·.lookup key)

mutual

/-- Equality as a script sees it: numbers by value, all else by shape and order. -/
def same : Value → Value → Bool
  | .null, .null => true
  | .boolean a, .boolean b => a == b
  | .number a, .number b => a.same b
  | .string a, .string b => a == b
  | .sequence a, .sequence b => sameItems a b
  | .mapping a, .mapping b => sameEntries a b
  | _, _ => false

def sameItems : List Value → List Value → Bool
  | [], [] => true
  | a :: as, b :: bs => a.same b && sameItems as bs
  | _, _ => false

def sameEntries : List (String × Value) → List (String × Value) → Bool
  | [], [] => true
  | (j, a) :: as, (k, b) :: bs => j == k && a.same b && sameEntries as bs
  | _, _ => false

end

mutual

/-- No mapping, at any depth, has a key twice. -/
def KeysDistinct : Value → Prop
  | .sequence items => ItemsDistinct items
  | .mapping entries => (entries.map Prod.fst).Nodup ∧ EntriesDistinct entries
  | _ => True

def ItemsDistinct : List Value → Prop
  | [] => True
  | v :: vs => v.KeysDistinct ∧ ItemsDistinct vs

def EntriesDistinct : List (String × Value) → Prop
  | [] => True
  | (_, v) :: es => v.KeysDistinct ∧ EntriesDistinct es

end

end Value

end ConfigModules
