import DbImage.Number.Double

/-!
The decimal text of a double. `shortest` finds the fewest digits that read back as the same double,
and of those the nearest; `significant` rounds to a fixed number of digits. Both work on exact
fractions. What is left to a format is where positional notation ends, and whether a whole number
keeps its point.
-/

namespace DbImage
namespace Number

/-- The decimal number `digits * 10 ^ exponent`. -/
structure Decimal where
  digits : Nat
  exponent : Int
  deriving DecidableEq, Repr

namespace Decimal

/-- Moves trailing zeros of the digits into the exponent, at most `fuel` of them. -/
def strip : Nat → Decimal → Decimal
  | 0, d => d
  | fuel + 1, d =>
    if d.digits ≠ 0 ∧ d.digits % 10 = 0 then strip fuel ⟨d.digits / 10, d.exponent + 1⟩ else d

def text (d : Decimal) : List Char :=
  (Nat.repr d.digits).toList

/-- The exponent of the leading digit: `123.4` has 2. -/
def leading (d : Decimal) : Int :=
  d.text.length - 1 + d.exponent

end Decimal

/-- The fraction `num / den` scaled by a power of ten, rounded down. -/
def scaleDown (num den : Nat) (power : Int) : Nat :=
  num * 10 ^ power.toNat / (den * 10 ^ (-power).toNat)

/-- The exponent of the leading decimal digit of the fraction, searched upward from a lower bound. -/
def leadingFrom (num den : Nat) : Nat → Int → Int
  | 0, k => k
  | fuel + 1, k => if scaleDown num den (-(k + 1)) = 0 then k else leadingFrom num den fuel (k + 1)

/-- The exponent of the leading decimal digit of a positive fraction. The binary logarithm gives it
to within two. -/
def leadingDigit (num den : Nat) : Int :=
  leadingFrom num den 4 (Double.floorLog2 num den * 30103 / 100000 - 2)

/-- The fraction rounded to `n` significant digits; a half goes to the even neighbour. -/
def significant (n : Nat) (num den : Nat) : Decimal :=
  let e := leadingDigit num den - (n - 1 : Int)
  ⟨roundDiv (num * 10 ^ (-e).toNat) (den * 10 ^ e.toNat), e⟩

/-- The reals that round to a double, as multiples of a quarter of its last bit. The ends belong to
the interval when the mantissa is even. -/
structure Interval where
  low : Nat
  value : Nat
  high : Nat
  ends : Bool
  deriving DecidableEq, Repr

/-- Below a power of two the neighbour is half as far. -/
def Interval.around (mantissa : Nat) (exponent : Int) : Interval where
  low := 4 * mantissa -
    (if mantissa = 2 ^ (Double.precision - 1) ∧ Double.leastExponent < exponent then 1 else 2)
  value := 4 * mantissa
  high := 4 * mantissa + 2
  ends := mantissa % 2 == 0

/-- The whole number `n`, in the same quarters scaled by `unit`, lies in the interval. -/
def Interval.holds (i : Interval) (unit n : Nat) : Bool :=
  if i.ends then decide (i.low * unit ≤ n) && decide (n ≤ i.high * unit)
  else decide (i.low * unit < n) && decide (n < i.high * unit)

/-- Of the two neighbours of the value on the grid of `10 ^ e`, the one that reads back, and of two
the nearer; on a tie the even one. -/
def onGrid? (i : Interval) (exponent e : Int) : Option Nat :=
  -- `unit` quarters of the last bit and `step` quarters of the grid measure one common length
  let unit := 2 ^ (exponent - 2).toNat * 10 ^ (-e).toNat
  let step := 2 ^ (2 - exponent).toNat * 10 ^ e.toNat
  let below := i.value * unit / step
  let above := below + 1
  let lowFits := i.holds unit (below * step)
  let highFits := i.holds unit (above * step)
  if lowFits && highFits then
    let down := i.value * unit - below * step
    let up := above * step - i.value * unit
    some (if down < up then below else if up < down then above else below + below % 2)
  else if lowFits then some below
  else if highFits then some above
  else none

/-- Tries one more digit at a time. Seventeen always suffice. -/
def shortestFrom (i : Interval) (exponent leading : Int) : Nat → Nat → Decimal
  | 0, _ => ⟨0, 0⟩
  | fuel + 1, n =>
    let e := leading - n
    match onGrid? i exponent e with
    | some d => ⟨d, e⟩
    | none => shortestFrom i exponent leading fuel (n + 1)

/-- The shortest decimal that reads back as `mantissa * 2 ^ exponent`, and of those the nearest. -/
def shortest (mantissa : Nat) (exponent : Int) : Decimal :=
  let (num, den) := Double.ratio mantissa exponent
  (shortestFrom (.around mantissa exponent) exponent (leadingDigit num den) 18 0).strip 400

/-- How a format lays out the digits it has chosen. -/
structure Layout where
  /-- Leading digits at this exponent or above are written with an exponent. -/
  positionalBelow : Int
  /-- A whole number written positionally ends in `.0`. -/
  keepsPoint : Bool

namespace Layout

/-- The shortest form: positional from `0.0001` up to sixteen whole digits. -/
def full : Layout := ⟨16, true⟩

/-- The compact form of six digits: positional from `0.0001` up to six whole digits. -/
def compact : Layout := ⟨6, false⟩

/-- The exponent has a sign and at least two digits. -/
def exponentText (e : Int) : List Char :=
  let digits := (Nat.repr e.natAbs).toList
  'e' :: (if e < 0 then '-' else '+') :: (if digits.length < 2 then '0' :: digits else digits)

def positional (l : Layout) (d : Decimal) : List Char :=
  let digits := d.text
  if 0 ≤ d.exponent then
    digits ++ List.replicate d.exponent.toNat '0' ++ (if l.keepsPoint then ['.', '0'] else [])
  else
    let places := (-d.exponent).toNat
    if places < digits.length then
      digits.take (digits.length - places) ++ '.' :: digits.drop (digits.length - places)
    else
      '0' :: '.' :: List.replicate (places - digits.length) '0' ++ digits

/-- The first digit, a point and the others if there are any, and the exponent. -/
def scientific (d : Decimal) : List Char :=
  match d.text with
  | [] => []
  | [c] => c :: exponentText d.leading
  | c :: rest => c :: '.' :: rest ++ exponentText d.leading

def write (l : Layout) (d : Decimal) : List Char :=
  if d.digits ≠ 0 ∧ (d.leading < -4 ∨ l.positionalBelow ≤ d.leading) then scientific d
  else l.positional d

end Layout

namespace Double

/-- The sign goes in front; an infinity and what is not a number have words. -/
def textWith (finite : Nat → Int → List Char) : Double → String
  | .finite negative m e => String.ofList ((if negative then ['-'] else []) ++ finite m e)
  | .infinite negative => if negative then "-inf" else "inf"
  | .nan => "nan"

/-- The shortest text that reads back as the same double. -/
def toText : Double → String :=
  textWith fun m e => Layout.full.write (if m = 0 then ⟨0, 0⟩ else shortest m e)

/-- The text to six significant digits, trailing zeros left out. -/
def toCompactText : Double → String :=
  textWith fun m e =>
    let (num, den) := ratio m e
    Layout.compact.write (if m = 0 then ⟨0, 0⟩ else (significant 6 num den).strip 400)

end Double
end Number
end DbImage
