import ConfigModules.Text.DecimalText
import ConfigModules.Text.Hex
/-!
Number literals of a script: decimal with fraction and exponent, with a radix mark, the old octal
form after a leading zero, and integers with the suffix `n`. Underscores may part digits.
-/
namespace ConfigModules.Script

inductive Numeral where
  | real (x : Double)
  /-- An integer of any size, which is another type. -/
  | integer
deriving DecidableEq, Repr

namespace NumberText

/-- Decimal digits that underscores may part, or none at all. -/
def optionalDigits? (cs : List Char) : Option (List Char × List Char) :=
  match cs with
  | c :: _ => if c.isDigit then partedDigits? Char.isDigit false [] cs else some ([], cs)
  | [] => some ([], [])

def exponent? (cs : List Char) : Option (Int × List Char) :=
  match cs with
  | c :: cs' =>
    if c = 'e' ∨ c = 'E' then
      let (negative, ds) := match cs' with
        | '-' :: ds => (true, ds)
        | '+' :: ds => (false, ds)
        | ds => (false, ds)
      (partedDigits? Char.isDigit false [] ds).map fun (digits, rest) =>
        (if negative then -(digitsValue digits : Int) else digitsValue digits, rest)
    else some (0, cs)
  | [] => some (0, [])

/-- The decimal with these digits before the point, from the fraction on. -/
def fraction? (whole cs : List Char) : Option (Numeral × List Char) :=
  match optionalDigits? cs with
  | none => none
  | some (fraction, rest) =>
    (exponent? rest).map fun (e, rest) =>
      (.real (Double.ofDecimal false (digitsValue (whole ++ fraction)) (e - fraction.length)), rest)

/-- What follows the digits of a decimal: a point, an exponent, or the suffix of integers. -/
def afterWhole? (whole cs : List Char) : Option (Numeral × List Char) :=
  match cs with
  | '.' :: cs => fraction? whole cs
  | 'n' :: cs => some (.integer, cs)
  | cs => (exponent? cs).map fun (e, rest) => (.real (Double.ofDecimal false (digitsValue whole) e), rest)

/-- A natural number cut to 53 bits. -/
def cut (n : Nat) : Nat :=
  let unit := Nat.pow 2 (n.log2 - 52)
  Double.roundQuotient n unit * unit

/-- The double that digits of a radix spell. Up to 64 bits it is rounded once; longer numerals are
rounded after every digit. -/
def radixDouble (radix limit : Nat) (digits : List Char) : Double :=
  let value (c : Char) : Nat := (Hex.value? c).getD 0
  if digits.length ≤ limit then Double.ofNat (digits.foldl (fun n c => n * radix + value c) 0)
  else Double.ofNat (digits.foldl (fun n c => cut (n * radix + value c)) 0)

/-- A radix with the digits that it admits and how many of them fit in 64 bits. -/
structure Radix where
  base : Nat
  limit : Nat

def Radix.isDigit (r : Radix) (c : Char) : Bool := (Hex.value? c).any (· < r.base)

def radix? (c : Char) : Option Radix :=
  if c = 'x' ∨ c = 'X' then some ⟨16, 16⟩
  else if c = 'o' ∨ c = 'O' then some ⟨8, 21⟩
  else if c = 'b' ∨ c = 'B' then some ⟨2, 64⟩
  else none

def withRadix? (r : Radix) (cs : List Char) : Option (Numeral × List Char) :=
  match partedDigits? r.isDigit false [] cs with
  | none => none
  | some (_, 'n' :: rest) => some (.integer, rest)
  | some (digits, rest) => some (.real (radixDouble r.base r.limit digits), rest)

/-- A numeral with a leading zero and more digits: octal, unless a digit is too large for that. -/
def paddedDigits? (cs : List Char) : Option (Numeral × List Char) :=
  let digits := cs.takeWhile Char.isDigit
  let rest := cs.dropWhile Char.isDigit
  if digits.all (fun c => c < '8') then some (.real (radixDouble 8 21 digits), rest)
  else match rest with
    | 'n' :: _ => none
    | rest => afterWhole? digits rest

/-- Reads a numeral that starts with a digit, or with a point before a digit. -/
def read? (cs : List Char) : Option (Numeral × List Char) :=
  match cs with
  | '.' :: cs => fraction? [] cs
  | '0' :: c :: cs =>
    match radix? c with
    | some r => withRadix? r cs
    | none => if c.isDigit then paddedDigits? ('0' :: c :: cs) else afterWhole? ['0'] (c :: cs)
  | cs =>
    match partedDigits? Char.isDigit false [] cs with
    | none => none
    | some (whole, rest) => afterWhole? whole rest

end NumberText

end ConfigModules.Script
