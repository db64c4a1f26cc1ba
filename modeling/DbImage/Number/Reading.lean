import DbImage.Number.Double
import DbImage.Text.CharSet

/-!
Numbers read from text. Digits of every script count, one underscore may stand between two digits,
and blanks around the number are ignored. `Double.ofText?` reads a floating-point number and
`intOfText?` a whole one in a given base; both answer `none` on anything malformed.
-/

namespace DbImage
namespace Number

/-- A digit of any script as its ASCII form and a blank of any script as a space. What is left
outside ASCII can stand in no number. -/
def plainChar (c : Char) : Char :=
  if c.toNat < 0x7f then c
  else if Text.isBlank c then ' '
  else
    match Text.digitValue? c with
    | some d => Char.ofNat ('0'.toNat + d)
    | none => '?'

/-- The blanks of ASCII, without the information separators. -/
def isPlainBlank (c : Char) : Bool :=
  c == ' ' || (decide (9 ≤ c.toNat) && decide (c.toNat ≤ 13))

/-- The text of a number with scripts unified and blanks dropped. -/
def plain (s : List Char) : List Char :=
  Text.trim isPlainBlank (s.map plainChar)

/-- The value of a digit in bases up to sixteen. -/
def hexValue? (c : Char) : Option Nat :=
  if '0' ≤ c ∧ c ≤ '9' then some (c.toNat - '0'.toNat)
  else if 'a' ≤ c ∧ c ≤ 'f' then some (c.toNat - 'a'.toNat + 10)
  else if 'A' ≤ c ∧ c ≤ 'F' then some (c.toNat - 'A'.toNat + 10)
  else none

def isDigitIn (base : Nat) (c : Char) : Bool :=
  (hexValue? c).any (· < base)

/-- Drops each underscore that stands between two digits; any other underscore is a mistake. -/
def dropSeparators? (isDigit : Char → Bool) : Bool → List Char → Option (List Char)
  | _, [] => some []
  | afterDigit, c :: rest =>
    if c = '_' then
      if afterDigit && rest.head?.any isDigit then dropSeparators? isDigit false rest else none
    else (dropSeparators? isDigit (isDigit c) rest).map (c :: ·)

/-- Without underscores there is nothing to drop. -/
theorem dropSeparators?_of_not_mem (isDigit : Char → Bool) (after : Bool) (s : List Char)
    (h : '_' ∉ s) : dropSeparators? isDigit after s = some s := by
  induction s generalizing after with
  | nil => rfl
  | cons c rest ih =>
    have hc : c ≠ '_' := fun e => h (by simp [e])
    simp [dropSeparators?, hc, ih _ (fun e => h (by simp [e]))]

/-- The value of a run of digits, most significant first. -/
def valueOf (base : Nat) (digits : List Char) : Nat :=
  digits.foldl (fun n c => n * base + (hexValue? c).getD 0) 0

@[simp]
theorem valueOf_nil (base : Nat) : valueOf base [] = 0 := rfl

theorem valueOf_append_singleton (base : Nat) (s : List Char) (c : Char) :
    valueOf base (s ++ [c]) = valueOf base s * base + (hexValue? c).getD 0 := by
  simp [valueOf]

def splitSign : List Char → Bool × List Char
  | '-' :: rest => (true, rest)
  | '+' :: rest => (false, rest)
  | s => (false, s)

/-- The longest run of decimal digits a whole number in base ten may have. -/
def digitLimit : Nat := 4300

/-- The mark that may introduce the digits of a base: `0b`, `0o` or `0x`. -/
def baseMark? : Nat → Option Char
  | 2 => some 'b'
  | 8 => some 'o'
  | 16 => some 'x'
  | _ => none

/-- Drops the mark of the base, with the underscore that may follow it. -/
def dropBaseMark (base : Nat) (s : List Char) : List Char :=
  match s with
  | '0' :: c :: rest =>
    if baseMark? base = some c.toLower then
      match rest with
      | '_' :: digits => digits
      | digits => digits
    else s
  | _ => s

/-- Reads a whole number in base 2, 8, 10 or 16. -/
def intOfText? (base : Nat) (s : List Char) : Option Int := do
  let (negative, s) := splitSign (plain s)
  let digits ← dropSeparators? (isDigitIn base) false (dropBaseMark base s)
  if digits.isEmpty || !digits.all (isDigitIn base) then none
  if base = 10 && digitLimit < digits.length then none
  let n := valueOf base digits
  return if negative then -n else n

namespace Double

/-- The words for numbers without digits, in lower case. -/
def ofWord? : List Char → Option Double
  | ['i', 'n', 'f'] => some (.infinite false)
  | ['i', 'n', 'f', 'i', 'n', 'i', 't', 'y'] => some (.infinite false)
  | ['n', 'a', 'n'] => some .nan
  | _ => none

/-- The part after the `e`: an optional sign and digits. -/
def exponentOf? (s : List Char) : Option Int :=
  let (negative, digits) := splitSign s
  if digits.isEmpty || !digits.all (isDigitIn 10) then none
  else
    let n : Int := valueOf 10 digits
    some (if negative then -n else n)

/-- Reads `12`, `12.`, `.5`, `1.5e-3`: digits around at most one point, at least one of them, then
an optional exponent. -/
def ofDigits? (s : List Char) : Option Double := do
  let whole := s.takeWhile (isDigitIn 10)
  let rest := s.dropWhile (isDigitIn 10)
  let (places, rest) := match rest with
    | '.' :: r => (r.takeWhile (isDigitIn 10), r.dropWhile (isDigitIn 10))
    | r => ([], r)
  if whole.isEmpty && places.isEmpty then none
  let e ← match rest with
    | [] => some 0
    | c :: r => if c = 'e' ∨ c = 'E' then exponentOf? r else none
  return ofDecimal false (valueOf 10 (whole ++ places)) (e - places.length)

/-- Reads a number whose text is already plain ASCII without separators. -/
def ofPlain? (s : List Char) : Option Double :=
  let (negative, s) := splitSign s
  let x? := (ofWord? (s.map Char.toLower)).or (ofDigits? s)
  x?.map fun x => if negative then x.neg else x

def ofText? (s : List Char) : Option Double :=
  (dropSeparators? (isDigitIn 10) false (plain s)).bind ofPlain?

end Double
end Number
end DbImage
