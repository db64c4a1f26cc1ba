import DbImage.Datum
import DbImage.Number.Arithmetic
import DbImage.Text.Base64
import DbImage.Text.Lowercase
import DbImage.Yaml.Scalar.Form

/-!
The value of a scalar, given what it is meant to be. A tag may ask for more than the text can give, so
each reader takes any text and says in which way it fails.
-/

namespace DbImage
namespace Yaml
namespace Value

open Number (Double intOfText?)

def withoutUnderscores (s : List Char) : List Char :=
  s.filter (· ≠ '_')

def orFault {α : Type} (fault : Fault) : Option α → Except Fault α
  | some a => .ok a
  | none => .error fault

/-- Any mixture of capitals and small letters will do. -/
def bool (s : List Char) : Except Fault (Scalar LooseText) :=
  let word := Text.lowercase (String.ofList s)
  if ["yes", "true", "on"].contains word then .ok (.bool true)
  else if ["no", "false", "off"].contains word then .ok (.bool false)
  else .error (.unknownWord word)

/-- Reads parts to the base sixty, most significant first. -/
def sexagesimalInt (parts : List (List Char)) : Option Int :=
  parts.foldl (fun n? part => do return (← n?) * 60 + (← intOfText? 10 part)) (some 0)

/-- The magnitude of a whole number, whose form decides the base: a leading zero means base eight. -/
def magnitude (s : List Char) : Except Fault Int :=
  match s with
  | [] => .error .emptyNumber
  | ['0'] => .ok 0
  | '0' :: 'b' :: digits => orFault .badValue (intOfText? 2 digits)
  | '0' :: 'x' :: digits => orFault .badValue (intOfText? 16 digits)
  | '0' :: _ => orFault .badValue (intOfText? 8 s)
  | _ =>
    if s.contains ':' then orFault .badValue (sexagesimalInt (Form.splitColon s))
    else orFault .badValue (intOfText? 10 s)

/-- Underscores count for nothing and a sign may stand in front. -/
def int (s : List Char) : Except Fault (Scalar LooseText) :=
  match withoutUnderscores s with
  | '-' :: rest => (magnitude rest).map fun n => .int (-n)
  | '+' :: rest => (magnitude rest).map .int
  | s => (magnitude s).map .int

/-- Adds up parts to the base sixty, least significant first. Each place's weight must itself be
within the range of floating point. -/
def sexagesimalSum : Double → Nat → List (List Char) → Except Fault Double
  | sum, _, [] => .ok sum
  | sum, weight, part :: parts => do
    let digit ← orFault .badValue (Double.ofText? part)
    let scale ← orFault .tooLarge (Double.ofInt? weight)
    sexagesimalSum (sum.add (digit.mul scale)) (weight * 60) parts

/-- All parts are read before the first is weighed. -/
def sexagesimalFloat (parts : List (List Char)) : Except Fault Double :=
  if parts.all fun part => (Double.ofText? part).isSome then
    sexagesimalSum Double.zero 1 parts.reverse
  else .error .badValue

def floatMagnitude (s : List Char) : Except Fault Double :=
  if s = ".inf".toList then .ok (.infinite false)
  else if s = ".nan".toList then .ok .nan
  else if s.contains ':' then sexagesimalFloat (Form.splitColon s)
  else orFault .badValue (Double.ofText? s)

def float (s : List Char) : Except Fault (Scalar LooseText) :=
  match (Text.lowercase (String.ofList (withoutUnderscores s))).toList with
  | [] => .error .emptyNumber
  | '-' :: rest => (floatMagnitude rest).map fun x => .float x.neg
  | '+' :: rest => (floatMagnitude rest).map .float
  | s => (floatMagnitude s).map .float

def binary (s : List Char) : Except Fault (Scalar LooseText) :=
  if s.all (·.toNat < 0x80) then
    (orFault .malformed (Text.Base64.decode? s)).map fun bytes => .bytes ⟨bytes.toArray⟩
  else .error .malformed

def numeral (s : List Char) : Nat := Number.valueOf 10 s

/-- The first six places of a fraction. -/
def microseconds (fraction : List Char) : Nat :=
  let places := fraction.take 6
  numeral places * 10 ^ (6 - places.length)

/-- Seconds ahead of universal time. -/
def clock (zone : Bool × List Char × List Char) : Int :=
  let (behind, hours, minutes) := zone
  let ahead : Int := (numeral hours * 60 + numeral minutes) * 60
  if behind then -ahead else ahead

/-- A date, or a moment if a time is given. The parts must be on the calendar and the clock. -/
def timestamp (s : List Char) : Except Fault (Scalar LooseText) := do
  let w ← orFault .noMatch (Form.written? (Form.dropFinalBreak s))
  let date ← orFault .badValue (Date.ofParts? (numeral w.year) (numeral w.month) (numeral w.day))
  match w.time with
  | none => return .date date
  | some (hour, minute, second) =>
    let moment? := Moment.ofParts? date (numeral hour) (numeral minute) (numeral second)
      (microseconds w.fraction) (w.zone.map clock)
    return .moment (← orFault .badValue moment?)

/-- The value of characters under a tag for values without parts. -/
def ofChars (tag : Tag) (s : List Char) : Except Fault (Scalar LooseText) :=
  match tag with
  | .null => .ok .null
  | .bool => bool s
  | .int => int s
  | .float => float s
  | .binary => binary s
  | .timestamp => timestamp s
  | .str => .ok (.text (String.ofList s))
  | _ => .error .malformed

/-- The value of a text with halves of surrogate pairs, which is no number, word or date. -/
def ofLoose (tag : Tag) (s : LooseText) : Except Fault (Scalar LooseText) :=
  match tag with
  | .null => .ok .null
  | .bool => .error (.unknownWord s.lowercase)
  | .int | .float => .error .badValue
  | .timestamp => .error .noMatch
  | .str => .ok (.text s)
  | _ => .error .malformed

/-- The value of a text under a tag for values without parts. -/
def ofText (tag : Tag) (s : List CodePoint) : Except Fault (Scalar LooseText) :=
  match CodePoint.chars? s with
  | some s => ofChars tag s
  | none => ofLoose tag ⟨s⟩

@[simp]
theorem ofText_map_char (tag : Tag) (s : List Char) : ofText tag (s.map .char) = ofChars tag s := by
  rw [ofText, CodePoint.chars?_map_char]

end Value
end Yaml
end DbImage
