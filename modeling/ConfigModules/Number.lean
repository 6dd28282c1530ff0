import ConfigModules.Double.Text
/-!
Numbers of a document. Integers of 64 bits keep their exact digits for rendering; a script sees
every number as a double, so equality and property names go through `asDouble`.
-/
namespace ConfigModules

inductive Number where
  | unsigned (n : UInt64)
  | signed (i : Int64)
  | real (x : Double)
deriving DecidableEq, Repr

namespace Number

/-- The double that a script observes. -/
def asDouble : Number → Double
  | .unsigned n => Double.ofNat n.toNat
  | .signed i => Double.ofInt i.toInt
  | .real x => x

/-- An integer as a number: the signed form is for negative ones. -/
def ofInt64 (i : Int64) : Number :=
  if i.toInt < 0 then .signed i else .unsigned (UInt64.ofNat i.toInt.toNat)

def integerChars (i : Int) : List Char :=
  Layout.sign (i < 0) ++ Layout.digitsOf i.natAbs

def chars : Number → List Char
  | .unsigned n => integerChars n.toNat
  | .signed i => integerChars i.toInt
  | .real x => Layout.script.chars x

def text (n : Number) : String := String.ofList n.chars

/-- The name of the property that a script reaches with this number. Zero loses its sign. -/
def propertyKey (n : Number) : String := n.asDouble.unsignedZero.text

/-- Equality as numbers, except that a NaN equals a NaN. -/
def same (a b : Number) : Bool :=
  a.asDouble.numericallyEqual b.asDouble || (a.asDouble.isNaN && b.asDouble.isNaN)

end Number

end ConfigModules
