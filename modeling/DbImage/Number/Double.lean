import DbImage.Instances

/-!
Binary floating-point numbers of 64 bits, held exactly: a sign, a whole mantissa and a power of two.
Every number the library computes with is the correctly rounded value of a fraction, so one rounding
function carries all the arithmetic, and it runs on whole numbers alone.
-/

namespace DbImage
namespace Number

/-- The whole number nearest to `num / den`; a half goes to the even neighbour. -/
def roundDiv (num den : Nat) : Nat :=
  let q := num / den
  let r := num % den
  if 2 * r < den then q
  else if den < 2 * r then q + 1
  else q + q % 2

/-- A double. A finite one is `± mantissa * 2 ^ exponent`, where the mantissa has 53 bits, or fewer
at the least exponent. -/
inductive Double where
  | finite (negative : Bool) (mantissa : Nat) (exponent : Int)
  | infinite (negative : Bool)
  | nan
  deriving DecidableEq, Repr, Inhabited

namespace Double

def leastExponent : Int := -1074

def greatestExponent : Int := 971

/-- The number of bits of a full mantissa. -/
def precision : Nat := 53

def zero : Double := .finite false 0 leastExponent

/-- The power of two below the fraction: the whole part of its binary logarithm. -/
def floorLog2 (num den : Nat) : Int :=
  let guess : Int := num.log2 - den.log2
  if den * 2 ^ guess.toNat ≤ num * 2 ^ (-guess).toNat then guess else guess - 1

/-- The double nearest to `num / den`, with the even mantissa on a tie. Past the largest number it
is infinite. -/
def ofRatio (negative : Bool) (num den : Nat) : Double :=
  if num = 0 then .finite negative 0 leastExponent
  else
    let e := max (floorLog2 num den - (precision - 1 : Nat)) leastExponent
    let m := roundDiv (num * 2 ^ (-e).toNat) (den * 2 ^ e.toNat)
    let (m, e) := if m = 2 ^ precision then (2 ^ (precision - 1), e + 1) else (m, e)
    if greatestExponent < e then .infinite negative else .finite negative m e

/-- The fraction `mantissa * 2 ^ exponent`. -/
def ratio (mantissa : Nat) (exponent : Int) : Nat × Nat :=
  (mantissa * 2 ^ exponent.toNat, 2 ^ (-exponent).toNat)

/-- The double nearest to a whole number, unless that is infinite. -/
def ofInt? (n : Int) : Option Double :=
  match ofRatio (decide (n < 0)) n.natAbs 1 with
  | .infinite _ => none
  | x => some x

/-- The quotient by a positive whole number, rounded. -/
def divNat (x : Double) (n : Nat) : Double :=
  match x with
  | .finite negative m e =>
    let (num, den) := ratio m e
    ofRatio negative num (den * n)
  | x => x

/-- The value of `digits * 10 ^ exponent`, rounded. Beyond the exponents that any double reaches the
answer is known without computing the power. -/
def ofDecimal (negative : Bool) (digits : Nat) (exponent : Int) : Double :=
  let size : Int := (Nat.repr digits).length + exponent
  if digits = 0 ∨ size < -400 then .finite negative 0 leastExponent
  else if 400 < size then .infinite negative
  else ofRatio negative (digits * 10 ^ exponent.toNat) (10 ^ (-exponent).toNat)

/-- The whole number that the double equals, if there is one. -/
def toInt? : Double → Option Int
  | .finite negative m e =>
    let (num, den) := ratio m e
    if num % den = 0 then some (if negative then -(num / den : Nat) else (num / den : Nat)) else none
  | _ => none

def isFinite : Double → Bool
  | .finite .. => true
  | _ => false

def neg : Double → Double
  | .finite s m e => .finite (!s) m e
  | .infinite s => .infinite (!s)
  | .nan => .nan

end Double
end Number
end DbImage
