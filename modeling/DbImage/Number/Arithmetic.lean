import DbImage.Number.Double

/-!
Sums and products of doubles: the exact result, rounded once.
-/

namespace DbImage
namespace Number
namespace Double

/-- A finite double as a whole number over a power of two: the signed numerator and the exponent of
the denominator. -/
def numerator (negative : Bool) (mantissa : Nat) (exponent : Int) : Int :=
  let n : Int := mantissa * 2 ^ (exponent - leastExponent).toNat
  if negative then -n else n

/-- The double nearest to `n` units of the least exponent. A result of zero has the given sign. -/
def ofNumerator (negativeZero : Bool) (n : Int) : Double :=
  if n = 0 then .finite negativeZero 0 leastExponent
  else ofRatio (decide (n < 0)) n.natAbs (2 ^ (-leastExponent).toNat)

/-- Infinities of opposite sign have no sum. The sum of two numbers that cancel is a positive zero. -/
def add : Double → Double → Double
  | .nan, _ => .nan
  | _, .nan => .nan
  | .infinite s, .infinite t => if s = t then .infinite s else .nan
  | .infinite s, _ => .infinite s
  | _, .infinite t => .infinite t
  | .finite s m e, .finite t n f => ofNumerator (s && t) (numerator s m e + numerator t n f)

/-- An infinity times zero is undefined. -/
def mul : Double → Double → Double
  | .nan, _ => .nan
  | _, .nan => .nan
  | .infinite s, .infinite t => .infinite (s != t)
  | .infinite s, .finite t n _ => if n = 0 then .nan else .infinite (s != t)
  | .finite s m _, .infinite t => if m = 0 then .nan else .infinite (s != t)
  | .finite s m e, .finite t n f =>
    let (num, den) := ratio (m * n) (e + f)
    ofRatio (s != t) num den

end Double
end Number
end DbImage
