import ConfigModules.Double.Basic
/-!
Rounding to the nearest double. The exact input is a quotient of natural numbers or a decimal;
a tie goes to the even rank, and what lies half a unit beyond the last finite magnitude is infinite.
-/
namespace ConfigModules.Double

/-- The quotient rounded to the nearest integer, a tie to the even one. -/
def roundQuotient (num den : Nat) : Nat :=
  let q := num / den
  let r := num % den
  if 2 * r < den ∨ (2 * r = den ∧ q % 2 = 0) then q else q + 1

/-- The rank nearest to `num / den`, continued past the last finite rank as if there were no
greatest exponent. The quotient in units of 2^-1074 is cut to 53 bits, and a carry out of the
significand is the next rank because ranks of neighbouring binades are consecutive. -/
def nearestRank (num den : Nat) : Nat :=
  let scaled := num * Nat.pow 2 1074
  let shift := Nat.log2 (scaled / den) - 52
  shift * Nat.pow 2 52 + roundQuotient scaled (den * Nat.pow 2 shift)

/-- The magnitude of a rank that may lie past the last finite one. -/
def ofRank (negative : Bool) (rank : Nat) : Double :=
  if h : rank < finiteCount then .finite negative ⟨rank, h⟩ else .infinite negative

/-- The double nearest to `num / den`, with the given sign. -/
def ofQuotient (negative : Bool) (num den : Nat) : Double :=
  ofRank negative (nearestRank num den)

def ofNat (n : Nat) : Double := ofQuotient false n 1

/-- The double nearest to an integer; zero is positive. -/
def ofInt (i : Int) : Double := ofQuotient (i < 0) i.natAbs 1

/-- The double nearest to `digits * 10 ^ exponent`. Exponents far outside the range of doubles
are settled by their size, so that no power of ten is larger than the answer needs. -/
def ofDecimal (negative : Bool) (digits : Nat) (exponent : Int) : Double :=
  if digits = 0 then signedZero negative
  else if exponent > 400 then .infinite negative
  else if exponent < -(400 + digits.log2 : Int) then signedZero negative
  else if exponent ≥ 0 then ofQuotient negative (digits * Nat.pow 10 exponent.toNat) 1
  else ofQuotient negative digits (Nat.pow 10 (-exponent).toNat)

end ConfigModules.Double
