/-!
Double precision numbers as exact data. A finite magnitude is named by its rank among all finite
magnitudes, which is also its bit pattern without the sign, so order, neighbours and evenness are
those of natural numbers. `units` gives the value of a rank as a multiple of 2^-1074.
-/
namespace ConfigModules

/-- How many magnitudes are finite: 2047 binades of 2^52 each, the first one subnormal. -/
abbrev finiteCount : Nat := 2047 * Nat.pow 2 52

/-- A double. All NaN patterns are one value; zero keeps its sign. -/
inductive Double where
  | nan
  | infinite (negative : Bool)
  | finite (negative : Bool) (rank : Fin finiteCount)
deriving DecidableEq, Repr

namespace Double

def signedZero (negative : Bool) : Double := .finite negative ⟨0, by decide⟩

def zero : Double := signedZero false

instance : Inhabited Double := ⟨zero⟩

/-- The binade of a rank: 0 holds the subnormal magnitudes. -/
def binade (rank : Nat) : Nat := rank / Nat.pow 2 52

/-- The integer significand of a rank, with the hidden bit of a normal magnitude. -/
def significand (rank : Nat) : Nat :=
  if rank < Nat.pow 2 52 then rank else Nat.pow 2 52 + rank % Nat.pow 2 52

/-- The magnitude of a rank in units of 2^-1074. -/
def units (rank : Nat) : Nat := significand rank * Nat.pow 2 (binade rank - 1)

/-- Reads a 64 bit pattern: sign, eleven exponent bits, fraction. -/
def ofBits (bits : UInt64) : Double :=
  let negative := bits.toNat / Nat.pow 2 63 = 1
  let rank := bits.toNat % Nat.pow 2 63
  if h : rank < finiteCount then .finite negative ⟨rank, h⟩
  else if rank = finiteCount then .infinite negative
  else .nan

/-- The opposite number. A NaN has none but itself. -/
def neg : Double → Double
  | .nan => .nan
  | .infinite n => .infinite !n
  | .finite n r => .finite (!n) r

instance : Neg Double := ⟨neg⟩

def isNaN : Double → Bool
  | .nan => true
  | _ => false

/-- Numeric comparison: a NaN equals nothing, the two zeros equal each other. -/
def numericallyEqual : Double → Double → Bool
  | .infinite m, .infinite n => m == n
  | .finite m r, .finite n s => r == s && (m == n || r.val == 0)
  | _, _ => false

/-- The same number with zero made positive. -/
def unsignedZero : Double → Double
  | .finite n r => if r.val = 0 then zero else .finite n r
  | x => x

end Double

end ConfigModules
