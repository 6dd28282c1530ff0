import ConfigModules.Double.Shortest
/-!
Number text. A `Layout` says where positional notation ends and how the rest is spelled; the digits
are always the shortest ones. `Layout.script` is the text of a number in a module.
-/
namespace ConfigModules

/-- The decisions that turn shortest digits into text. The point stands after `n` digits of the
number `0.d₁d₂… * 10 ^ n`; positional notation covers `lowest ≤ n ≤ highest`. -/
structure Layout where
  lowest : Int
  highest : Int
  /-- Whether a number without fraction is written with one. -/
  keepFraction : Bool
  /-- Whether an exponent of one or more carries a sign. -/
  plusSign : Bool
  tie : Tie
  nanText : String
  infinityText : String
deriving DecidableEq, Repr

/-- Number text of a module: positional from 10^-6 up to 10^21, then a signed exponent. -/
def Layout.script : Layout := ⟨-5, 21, false, true, .up, "NaN", "Infinity"⟩

/-- Number text in a message about a document: positional from 10^-5 up to 10^16, with a fraction. -/
def Layout.document : Layout := ⟨-4, 16, true, false, .even, ".nan", ".inf"⟩

namespace Layout

def digitsOf (n : Nat) : List Char := Nat.toDigits 10 n

def zeros (n : Nat) : List Char := List.replicate n '0'

def exponent (l : Layout) (e : Int) : List Char :=
  'e' :: (if e < 0 then ['-'] else if l.plusSign then ['+'] else []) ++ digitsOf e.natAbs

/-- Positional digits with the point after `n` of them. -/
def positional (l : Layout) (digits : List Char) (n : Int) : List Char :=
  if n ≤ 0 then ['0', '.'] ++ zeros (-n).toNat ++ digits
  else if n.toNat < digits.length then digits.take n.toNat ++ '.' :: digits.drop n.toNat
  else digits ++ zeros (n.toNat - digits.length) ++ (if l.keepFraction then ['.', '0'] else [])

/-- One digit, the others after a point, and the exponent. -/
def scientific (l : Layout) (digits : List Char) (n : Int) : List Char :=
  match digits with
  | [] => l.exponent (n - 1)
  | [d] => d :: l.exponent (n - 1)
  | d :: more => d :: '.' :: more ++ l.exponent (n - 1)

def decimal (l : Layout) (x : Decimal) : List Char :=
  let digits := digitsOf x.digits
  let n := (digits.length : Int) + x.exponent
  if l.lowest ≤ n ∧ n ≤ l.highest then l.positional digits n else l.scientific digits n

def magnitude (l : Layout) (rank : Nat) : List Char :=
  if rank = 0 then '0' :: (if l.keepFraction then ['.', '0'] else [])
  else l.decimal (Double.shortest l.tie rank)

def sign (negative : Bool) : List Char := if negative then ['-'] else []

def chars (l : Layout) : Double → List Char
  | .nan => l.nanText.toList
  | .infinite n => sign n ++ l.infinityText.toList
  | .finite n r => sign n ++ l.magnitude r.val

end Layout

/-- The text of a double in a module. -/
def Double.text (x : Double) : String := String.ofList (Layout.script.chars x)

end ConfigModules
