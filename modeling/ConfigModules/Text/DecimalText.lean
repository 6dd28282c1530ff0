import ConfigModules.Double.Shortest
/-!
Decimal numerals as text: digits with at most one point, at least one digit, and an exponent with
an optional sign. The reader keeps the exact decimal; rounding is a separate step. Some notations
let underscores part the digits.
-/
namespace ConfigModules

def digitValue (c : Char) : Nat := c.toNat - '0'.toNat

def digitsValue (cs : List Char) : Nat := cs.foldl (fun n c => n * 10 + digitValue c) 0

/-- Reads digits that single underscores may part. The digits come without underscores. -/
def partedDigits? (isDigit : Char → Bool) :
    (after : Bool) → (taken : List Char) → List Char → Option (List Char × List Char)
  | after, taken, [] => if after then some (taken.reverse, []) else none
  | after, taken, c :: cs =>
    if isDigit c then partedDigits? isDigit true (c :: taken) cs
    else if c = '_' then if after then partedDigits? isDigit false taken cs else none
    else if after then some (taken.reverse, c :: cs) else none

namespace Decimal

/-- The exponent after its letter: an optional sign and digits up to the end. -/
def exponent? (cs : List Char) : Option Int :=
  let (negative, digits) := match cs with
    | '-' :: ds => (true, ds)
    | '+' :: ds => (false, ds)
    | ds => (false, ds)
  if digits.isEmpty || !digits.all Char.isDigit then none
  else if negative then some (-(digitsValue digits : Int)) else some (digitsValue digits)

/-- The decimal of digits before and after the point, and of what follows them. -/
def ofParts? (whole fraction tail : List Char) : Option Decimal :=
  if whole.isEmpty && fraction.isEmpty then none
  else
    let digits := digitsValue (whole ++ fraction)
    match tail with
    | [] => some ⟨digits, -(fraction.length : Int)⟩
    | c :: cs =>
      if c = 'e' ∨ c = 'E' then
        (exponent? cs).map fun e => ⟨digits, e - fraction.length⟩
      else none

/-- Reads an unsigned decimal numeral that is the whole text. -/
def ofChars? (cs : List Char) : Option Decimal :=
  let whole := cs.takeWhile Char.isDigit
  match cs.dropWhile Char.isDigit with
  | '.' :: rest => ofParts? whole (rest.takeWhile Char.isDigit) (rest.dropWhile Char.isDigit)
  | rest => ofParts? whole [] rest

def toDouble (negative : Bool) (x : Decimal) : Double := Double.ofDecimal negative x.digits x.exponent

end Decimal

end ConfigModules
