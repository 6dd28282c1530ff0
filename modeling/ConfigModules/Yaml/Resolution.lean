import ConfigModules.Yaml.Event
import ConfigModules.Yaml.Tree
import ConfigModules.Text.DecimalText
/-!
The value of a scalar. A plain scalar is resolved by its spelling; a tag of the core set asks for
one kind. An integer that 128 bits hold but 64 do not is refused instead of being rounded.
-/
namespace ConfigModules.Yaml

inductive ScalarKind where
  | boolean
  | integer
  | real
  | null
deriving DecidableEq, Repr

inductive ScalarFault where
  | wideInteger (i : Int)
  | mismatch (text : String) (wanted : ScalarKind)
deriving DecidableEq, Repr

namespace Resolution

def radixValue? (radix : Nat) (cs : List Char) : Option Nat :=
  if cs.isEmpty then none
  else cs.foldl (fun acc c => acc.bind fun n => (Hex.value? c).bind fun d =>
    if d < radix then some (n * radix + d) else none) (some 0)

def dropSign (cs : List Char) : List Char :=
  match cs with
  | '-' :: ds => ds
  | '+' :: ds => ds
  | ds => ds

/-- Digits with a needless leading zero, which are text. -/
def isPaddedDigits (cs : List Char) : Bool :=
  match dropSign cs with
  | '0' :: c :: ds => (c :: ds).all Char.isDigit
  | _ => false

/-- The magnitude of an integer without sign: a radix mark and digits, or decimal digits. -/
def magnitude? (cs : List Char) : Option Nat :=
  match cs with
  | '0' :: 'x' :: ds => radixValue? 16 ds
  | '0' :: 'o' :: ds => radixValue? 8 ds
  | '0' :: 'b' :: ds => radixValue? 2 ds
  | ds => if isPaddedDigits ds then none else radixValue? 10 ds

/-- An integer with at most one sign, as its sign and magnitude. -/
def integer? (cs : List Char) : Option (Bool × Nat) :=
  match cs with
  | '-' :: ds => (magnitude? ds).map (true, ·)
  | '+' :: ds => (magnitude? ds).map (false, ·)
  | ds => (magnitude? ds).map (false, ·)

/-- What an integer becomes: a number of 64 bits, a refusal up to 128 bits, nothing beyond. -/
def ofInteger (negative : Bool) (n : Nat) : Option (Except ScalarFault Tree) :=
  if negative then
    if n = 0 then some (.ok (.number (.unsigned 0)))
    else if n ≤ Nat.pow 2 63 then some (.ok (.number (.signed (Int64.ofInt (-(n : Int))))))
    else if n ≤ Nat.pow 2 127 then some (.error (.wideInteger (-(n : Int))))
    else none
  else if n < Nat.pow 2 64 then some (.ok (.number (.unsigned (UInt64.ofNat n))))
  else if n < Nat.pow 2 128 then some (.error (.wideInteger n))
  else none

def integerTree? (cs : List Char) : Option (Except ScalarFault Tree) :=
  (integer? cs).bind fun (negative, n) => ofInteger negative n

/-- The words for infinity and for no number. -/
def specialReal? (cs : List Char) : Option Double :=
  if cs ∈ [".inf", ".Inf", ".INF", "+.inf", "+.Inf", "+.INF"].map String.toList then
    some (.infinite false)
  else if cs ∈ ["-.inf", "-.Inf", "-.INF"].map String.toList then some (.infinite true)
  else if cs ∈ [".nan", ".NaN", ".NAN"].map String.toList then some .nan
  else none

/-- A decimal numeral with at most one sign. One that rounds to infinity is no number. -/
def decimalReal? (cs : List Char) : Option Double :=
  let negative := cs.head? = some '-'
  (Decimal.ofChars? (dropSign cs)).bind fun x =>
    match x.toDouble negative with
    | .finite n r => some (.finite n r)
    | _ => none

def real? (cs : List Char) : Option Double :=
  match specialReal? cs with
  | some x => some x
  | none => decimalReal? cs

def isNullWord (cs : List Char) : Bool := ["null", "Null", "NULL", "~"].map String.toList |>.contains cs

def boolean? (cs : List Char) : Option Bool :=
  if cs ∈ ["true", "True", "TRUE"].map String.toList then some true
  else if cs ∈ ["false", "False", "FALSE"].map String.toList then some false
  else none

def plain (text : String) : Except ScalarFault Tree :=
  let cs := text.toList
  if cs.isEmpty || isNullWord cs then .ok .null
  else match boolean? cs with
    | some b => .ok (.boolean b)
    | none =>
      match integerTree? cs with
      | some t => t
      | none =>
        if isPaddedDigits cs then .ok (.string text)
        else match real? cs with
          | some x => .ok (.number (.real x))
          | none => .ok (.string text)

/-- The tag of the core set with a name. -/
def coreTag (name : String) : TagBytes :=
  Tag.asciiBytes ("tag:yaml.org,2002:".toList ++ name.toList)

def wantedKind? (tag : TagBytes) : Option ScalarKind :=
  if tag = coreTag "bool" then some .boolean
  else if tag = coreTag "int" then some .integer
  else if tag = coreTag "float" then some .real
  else if tag = coreTag "null" then some .null
  else none

/-- The value of a scalar as the kind that its tag asks for. -/
def ofKind (kind : ScalarKind) (text : String) : Except ScalarFault Tree :=
  let cs := text.toList
  let found : Option (Except ScalarFault Tree) := match kind with
    | .boolean => (boolean? cs).map fun b => .ok (.boolean b)
    | .integer => integerTree? cs
    | .real => (real? cs).map fun x => .ok (.number (.real x))
    | .null => if isNullWord cs then some (.ok .null) else none
  found.getD (.error (.mismatch text kind))

/-- The value of a scalar. A local tag on a plain scalar leaves it to its spelling. -/
def scalar (tag : Option TagBytes) (text : String) (style : ScalarStyle) :
    Except ScalarFault Tree :=
  match tag with
  | none => if style = .plain then plain text else .ok (.string text)
  | some tag =>
    match wantedKind? tag with
    | some kind => ofKind kind text
    | none =>
      if style = .plain ∧ tag.head? = some (UInt8.ofNat '!'.toNat) then plain text
      else .ok (.string text)

end Resolution

end ConfigModules.Yaml
