/-! Hexadecimal digits: reading one, and writing a number with a least width. -/
namespace ConfigModules.Hex

def value? (c : Char) : Option Nat :=
  if '0' ≤ c ∧ c ≤ '9' then some (c.toNat - '0'.toNat)
  else if 'a' ≤ c ∧ c ≤ 'f' then some (c.toNat - 'a'.toNat + 10)
  else if 'A' ≤ c ∧ c ≤ 'F' then some (c.toNat - 'A'.toNat + 10)
  else none

/-- Lower case digits without leading zeros. -/
def digits (n : Nat) : List Char := Nat.toDigits 16 n

/-- Lower case digits, at least four. -/
def fourDigits (n : Nat) : List Char :=
  let d := digits n
  List.replicate (4 - d.length) '0' ++ d

end ConfigModules.Hex
