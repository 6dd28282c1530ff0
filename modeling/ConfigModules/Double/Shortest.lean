import ConfigModules.Double.Nearest
/-!
The shortest decimal of a finite magnitude: fewest significant digits that read back, and of those
the nearest. The search goes over the grids of powers of ten from coarse to fine. On each grid only
the two neighbours of the exact value are tried, because rounding is monotone: if any point of the
grid reads back, so does one of them.
-/
namespace ConfigModules

/-- The decimal `digits * 10 ^ exponent`. -/
structure Decimal where
  digits : Nat
  exponent : Int
deriving DecidableEq, Repr

/-- Where a value exactly between two candidates goes. -/
inductive Tie where
  | up
  | even
deriving DecidableEq, Repr

namespace Double

/-- How many decimal places the exact value of a rank needs at most. -/
def places (rank : Nat) : Nat := 1075 - max (binade rank) 1

/-- The exact value of a rank as a multiple of `10 ^ -places`. -/
def exactDigits (rank : Nat) : Nat :=
  significand rank * Nat.pow 2 (binade rank - 1075) * Nat.pow 5 (places rank)

/-- Whether `m * 10 ^ k`, in units of `10 ^ -places`, rounds to the rank. -/
def readsBack (rank m k : Nat) : Bool :=
  nearestRank (m * Nat.pow 10 k) (Nat.pow 10 (places rank)) == rank

/-- The better neighbour of the value on the grid of `10 ^ k`, if one reads back. -/
def neighbour? (tie : Tie) (rank k : Nat) : Option Nat :=
  let value := exactDigits rank
  let low := value / Nat.pow 10 k
  let rest := value % Nat.pow 10 k
  if rest = 0 then some low
  else match readsBack rank low k, readsBack rank (low + 1) k with
    | false, false => none
    | true, false => some low
    | false, true => some (low + 1)
    | true, true =>
      if 2 * rest < Nat.pow 10 k then some low
      else if 2 * rest > Nat.pow 10 k then some (low + 1)
      else if tie = .even ∧ low % 2 = 0 then some low
      else some (low + 1)

/-- The first grid at or below `10 ^ k` that has a neighbour. The finest grid holds the value. -/
def shortestFrom (tie : Tie) (rank : Nat) : Nat → Decimal
  | 0 => ⟨exactDigits rank, -(places rank : Int)⟩
  | k + 1 =>
    match neighbour? tie rank (k + 1) with
    | some m => ⟨m, (k + 1 : Nat) - (places rank : Int)⟩
    | none => shortestFrom tie rank k

/-- The shortest decimal of a rank other than zero. The search starts above the first digit:
30103 / 100000 is a little more than the logarithm of two. -/
def shortest (tie : Tie) (rank : Nat) : Decimal :=
  shortestFrom tie rank ((exactDigits rank).log2 * 30103 / 100000 + 2)

end Double

end ConfigModules
