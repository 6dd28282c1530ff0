import ConfigModules.Text.DecimalText
import ConfigModules.Text.Hex
import ConfigModules.Double.Nearest
import ConfigModules.Toml.Basic
/-!
TOML numbers, truth values, dates and times. Integers have 64 bits, a float must not overflow to
positive infinity, and dates are days of the calendar.
-/
namespace ConfigModules.Toml

/-- What follows a word, if the text starts with it. -/
def afterWord? (word : String) (cs : List Char) : Option (List Char) :=
  if word.toList.isPrefixOf cs then some (cs.drop word.length) else none

/-- Reads an optional sign: whether it is a minus. -/
def sign (cs : List Char) : Bool × List Char :=
  match cs with
  | '-' :: cs => (true, cs)
  | '+' :: cs => (false, cs)
  | cs => (false, cs)

/-- Reads the digits of a decimal integer. A leading zero stands alone. -/
def wholeDigits? (cs : List Char) : Option (List Char × List Char) :=
  match cs with
  | '0' :: cs => some (['0'], cs)
  | cs => partedDigits? Char.isDigit false [] cs

def integer? (negative : Bool) (n : Nat) : Option Item :=
  let i : Int := if negative then -(n : Int) else n
  let bound : Int := Nat.pow 2 63
  if -bound ≤ i ∧ i < bound then some (.integer i) else none

/-- Reads an integer with a radix mark. -/
def radixInteger? (base : Nat) (cs : List Char) : Option (Item × List Char) :=
  match partedDigits? (fun c => (Hex.value? c).any (· < base)) false [] cs with
  | none => none
  | some (digits, rest) =>
    let n := digits.foldl (fun n c => n * base + (Hex.value? c).getD 0) 0
    (integer? false n).map (·, rest)

/-- Reads an exponent with its letter, if one follows. -/
def exponent? (cs : List Char) : Option (Option Int × List Char) :=
  match cs with
  | c :: tail =>
    if c = 'e' ∨ c = 'E' then
      let (negative, tail) := sign tail
      (partedDigits? Char.isDigit false [] tail).map fun (digits, rest) =>
        (some (if negative then -(digitsValue digits : Int) else digitsValue digits), rest)
    else some (none, cs)
  | [] => some (none, [])

def float? (negative : Bool) (digits : List Char) (exponent : Int) : Option Item :=
  match Double.ofDecimal negative (digitsValue digits) exponent with
  | .infinite false => none
  | x => some (.float x)

/-- Reads a number after its sign. -/
def unsignedNumber? (negative : Bool) (cs : List Char) : Option (Item × List Char) :=
  match wholeDigits? cs with
  | none =>
    match afterWord? "inf" cs, afterWord? "nan" cs with
    | some rest, _ => some (.float (.infinite negative), rest)
    | _, some rest => some (.float .nan, rest)
    | none, none => none
  | some (whole, '.' :: rest) => do
    let (fraction, rest) ← partedDigits? Char.isDigit false [] rest
    let (e, rest) ← exponent? rest
    let x ← float? negative (whole ++ fraction) (e.getD 0 - fraction.length)
    some (x, rest)
  | some (whole, rest) => do
    let (e, rest) ← exponent? rest
    let x ← match e with
      | some e => float? negative whole e
      | none => integer? negative (digitsValue whole)
    some (x, rest)

/-- Reads a number. Only one without a sign may have a radix mark. -/
def number? (cs : List Char) : Option (Item × List Char) :=
  match cs with
  | '0' :: 'x' :: cs => radixInteger? 16 cs
  | '0' :: 'o' :: cs => radixInteger? 8 cs
  | '0' :: 'b' :: cs => radixInteger? 2 cs
  | cs =>
    let (negative, cs) := sign cs
    unsignedNumber? negative cs

/-- Reads a number of so many digits that lies between bounds. -/
def fixedDigits? (width least greatest : Nat) (cs : List Char) : Option (Nat × List Char) :=
  let digits := cs.take width
  if digits.length = width ∧ digits.all Char.isDigit then
    let n := digitsValue digits
    if least ≤ n ∧ n ≤ greatest then some (n, cs.drop width) else none
  else none

def mark? (c : Char) : List Char → Option (List Char)
  | d :: cs => if d = c then some cs else none
  | [] => none

def daysInMonth (year month : Nat) : Nat :=
  if month = 2 then if year % 4 = 0 ∧ (year % 100 ≠ 0 ∨ year % 400 = 0) then 29 else 28
  else if month = 4 ∨ month = 6 ∨ month = 9 ∨ month = 11 then 30
  else 31

def date? (cs : List Char) : Option (List Char) := do
  let (year, cs) ← fixedDigits? 4 0 9999 cs
  let cs ← mark? '-' cs
  let (month, cs) ← fixedDigits? 2 1 12 cs
  let cs ← mark? '-' cs
  let (_, cs) ← fixedDigits? 2 1 (daysInMonth year month) cs
  some cs

def time? (cs : List Char) : Option (List Char) := do
  let (_, cs) ← fixedDigits? 2 0 23 cs
  let cs ← mark? ':' cs
  let (_, cs) ← fixedDigits? 2 0 59 cs
  let cs ← mark? ':' cs
  let (_, cs) ← fixedDigits? 2 0 60 cs
  match cs with
  | '.' :: rest => if (rest.head?.any Char.isDigit) then some (rest.dropWhile Char.isDigit) else some cs
  | cs => some cs

/-- Reads the distance from universal time. -/
def offset? (cs : List Char) : Option (List Char) :=
  match cs with
  | c :: rest =>
    if c = 'Z' ∨ c = 'z' then some rest
    else if c = '+' ∨ c = '-' then do
      let (_, rest) ← fixedDigits? 2 0 23 rest
      let rest ← mark? ':' rest
      let (_, rest) ← fixedDigits? 2 0 59 rest
      some rest
    else none
  | [] => none

def timeAfterDate? (cs : List Char) : Option (List Char) :=
  match cs with
  | c :: rest =>
    if c = 'T' ∨ c = 't' ∨ c = ' ' then (time? rest).map fun rest => (offset? rest).getD rest else none
  | [] => none

def dateTime? (cs : List Char) : Option (List Char) :=
  match date? cs with
  | some rest => some ((timeAfterDate? rest).getD rest)
  | none => time? cs

/-- Reads a value that is no string and has no parts. -/
def scalarItem? (cs : List Char) : Option (Item × List Char) :=
  match afterWord? "true" cs, afterWord? "false" cs, dateTime? cs with
  | some rest, _, _ => some (.boolean true, rest)
  | _, some rest, _ => some (.boolean false, rest)
  | _, _, some rest => some (.dateTime, rest)
  | none, none, none => number? cs

end ConfigModules.Toml
