import DbImage.Calendar
import DbImage.Number.Reading
import DbImage.Yaml.Node.Basic

/-!
What a plain scalar is meant to be is told by its form alone: the words for truth values and null, the
forms of numbers and dates, and text for everything else.
-/

namespace DbImage
namespace Yaml

namespace Form

/-- The words for truth values: each all small, capitalised, or all capitals. -/
def boolWords : List String :=
  ["yes", "Yes", "YES", "no", "No", "NO", "true", "True", "TRUE", "false", "False", "FALSE",
   "on", "On", "ON", "off", "Off", "OFF"]

def nullWords : List String := ["~", "null", "Null", "NULL", ""]

def isSign (c : Char) : Bool := c == '-' || c == '+'

def dropSign : List Char → List Char
  | c :: rest => if isSign c then rest else c :: rest
  | [] => []

def isDigitish (c : Char) : Bool := c.isDigit || c == '_'

/-- Starts with a digit and goes on with digits and underscores. -/
def isNumeral : List Char → Bool
  | c :: rest => c.isDigit && rest.all isDigitish
  | [] => false

/-- Underscores may stand among the digits, of which the first is not zero, or all is one zero. -/
def isDecimal : List Char → Bool
  | ['0'] => true
  | c :: rest => c != '0' && isNumeral (c :: rest)
  | [] => false

/-- One digit, or two of which the first is at most 5. -/
def isSixty : List Char → Bool
  | [c] => c.isDigit
  | [c, d] => decide ('0' ≤ c) && decide (c ≤ '5') && d.isDigit
  | _ => false

def splitColon : List Char → List (List Char)
  | [] => [[]]
  | c :: rest =>
    if c = ':' then [] :: splitColon rest
    else
      match splitColon rest with
      | [] => [[c]]
      | part :: parts => (c :: part) :: parts

/-- Parts between colons, of which those after the first count to sixty. -/
def isSexagesimal (first : List Char → Bool) (s : List Char) : Bool :=
  match splitColon s with
  | part :: part' :: parts => first part && (part' :: parts).all isSixty
  | _ => false

/-- A whole number: binary, octal, decimal, hexadecimal, or to the base sixty. -/
def isInt (s : List Char) : Bool :=
  let s := dropSign s
  match s with
  | '0' :: 'b' :: digits =>
    !digits.isEmpty && digits.all fun c => c == '0' || c == '1' || c == '_'
  | '0' :: 'x' :: digits =>
    !digits.isEmpty && digits.all fun c => Number.isDigitIn 16 c || c == '_'
  | _ =>
    (match s with
      | '0' :: digits => !digits.isEmpty && digits.all fun c => Number.isDigitIn 8 c || c == '_'
      | _ => false)
    || isDecimal s
    || isSexagesimal (fun part => part.head? != some '0' && isNumeral part) s

/-- Nothing, or an exponent, whose sign is not left out. -/
def isExponent : List Char → Bool
  | [] => true
  | c :: s :: digits =>
    (c == 'e' || c == 'E') && isSign s && !digits.isEmpty && digits.all Char.isDigit
  | _ => false

def splitPoint? (s : List Char) : Option (List Char × List Char) :=
  match s.dropWhile (· ≠ '.') with
  | '.' :: after => some (s.takeWhile (· ≠ '.'), after)
  | _ => none

/-- A number with a point, or one of the words for what is no finite number. -/
def isFloat (s : List Char) : Bool :=
  let unsigned := dropSign s
  [".inf", ".Inf", ".INF"].contains (String.ofList unsigned)
    || [".nan", ".NaN", ".NAN"].contains (String.ofList s)
    || (match splitPoint? unsigned with
      | some (whole, after) =>
        (isNumeral whole && isExponent (after.dropWhile isDigitish))
          || (isSexagesimal isNumeral whole && after.all isDigitish)
      | none => false)
    || (match s with
      | '.' :: after => after.head?.any Char.isDigit && isExponent (after.dropWhile isDigitish)
      | _ => false)

/-- The parts of a date, or of a date and a time, as they are written. -/
structure Written where
  year : List Char
  month : List Char
  day : List Char
  time : Option (List Char × List Char × List Char)
  fraction : List Char
  /-- The sign, the hours and the minutes by which the clock is ahead. -/
  zone : Option (Bool × List Char × List Char)
  deriving DecidableEq, Repr

/-- Takes between `least` and `most` digits. -/
def digits? (least most : Nat) (s : List Char) : Option (List Char × List Char) :=
  let run := (s.takeWhile Char.isDigit).take most
  if run.length < least then none else some (run, s.drop run.length)

def expect? (c : Char) : List Char → Option (List Char)
  | d :: rest => if d = c then some rest else none
  | [] => none

def isGap (c : Char) : Bool := c == ' ' || c == '\t'

/-- What divides the date from the time: one `T`, or blanks. -/
def gap? : List Char → Option (List Char)
  | c :: rest =>
    if c = 'T' ∨ c = 't' then some rest
    else if isGap c then some (rest.dropWhile isGap)
    else none
  | [] => none

/-- The zone at the end of a time: nothing, `Z`, or a sign with hours and perhaps minutes. -/
def zone? (s : List Char) : Option (Option (Bool × List Char × List Char)) :=
  if s.isEmpty then some none
  else
    match s.dropWhile isGap with
    | ['Z'] => some (some (false, ['0'], []))
    | c :: rest =>
      if !isSign c then none
      else do
        let (hours, rest) ← digits? 1 2 rest
        if rest.isEmpty then return some (c == '-', hours, [])
        let (minutes, rest) ← digits? 2 2 (← expect? ':' rest)
        if rest.isEmpty then return some (c == '-', hours, minutes) else none
    | [] => none

/-- Reads a date or a date with a time. -/
def written? (s : List Char) : Option Written := do
  let (year, s) ← digits? 4 4 s
  let (month, s) ← digits? 1 2 (← expect? '-' s)
  let (day, s) ← digits? 1 2 (← expect? '-' s)
  if s.isEmpty then return ⟨year, month, day, none, [], none⟩
  let (hour, s) ← digits? 1 2 (← gap? s)
  let (minute, s) ← digits? 2 2 (← expect? ':' s)
  let (second, s) ← digits? 2 2 (← expect? ':' s)
  let (fraction, s) := match s with
    | '.' :: rest => (rest.takeWhile Char.isDigit, rest.dropWhile Char.isDigit)
    | s => ([], s)
  return ⟨year, month, day, some (hour, minute, second), fraction, ← zone? s⟩

/-- The form of a date: with a time, or with two digits for month and day. -/
def isTimestamp (s : List Char) : Bool :=
  match written? s with
  | some w => w.time.isSome || (w.month.length == 2 && w.day.length == 2)
  | none => false

/-- One break at the very end does not count. -/
def dropFinalBreak (s : List Char) : List Char :=
  if s.getLast? = some '\n' then s.dropLast else s

/-- What a plain scalar is meant to be. -/
def tagOf (s : List Char) : Tag :=
  if s.isEmpty then .null
  else
    let s := dropFinalBreak s
    let word := String.ofList s
    if boolWords.contains word then .bool
    else if isFloat s then .float
    else if isInt s then .int
    else if word = "<<" then .merge
    else if !s.isEmpty && nullWords.contains word then .null
    else if isTimestamp s then .timestamp
    else if word = "=" then .value
    else if word = "!" ∨ word = "&" ∨ word = "*" then .other
    else .str

end Form
end Yaml
end DbImage
