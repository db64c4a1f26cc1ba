import DbImage.Datum

/-!
What a check finds wrong with a value: a complaint and the place it is about. Complaints are causes;
their codes and wording are written down once, here.
-/

namespace DbImage

/-- One step into a value: a key, or a position in a list. -/
inductive Step where
  | key (name : String)
  | index (n : Int)
  deriving DecidableEq, Repr

namespace Step

/-- The numbers of a date or a moment, with commas between. -/
def numberList (ns : List Nat) : String :=
  ", ".intercalate (ns.map Nat.repr)

/-- How far a clock is ahead. Days and seconds are given apart, the seconds never negative. -/
def clockText (ahead : Int) : String :=
  if ahead = 0 then "datetime.timezone.utc"
  else
    let days := ahead.fdiv 86400
    let daysText := if days = 0 then "" else "days=" ++ toString days ++ ", "
    "datetime.timezone(datetime.timedelta(" ++ daysText ++ "seconds="
      ++ toString (ahead.fmod 86400) ++ "))"

def momentText (m : Moment) : String :=
  let parts := [m.date.year, m.date.month, m.date.day, m.hour, m.minute]
  let parts :=
    if m.microsecond ≠ 0 then parts ++ [m.second, m.microsecond]
    else if m.second ≠ 0 then parts ++ [m.second]
    else parts
  let clock := match m.ahead with
    | none => ""
    | some ahead => ", tzinfo=" ++ clockText ahead
  "datetime.datetime(" ++ numberList parts ++ clock ++ ")"

/-- Whole numbers within 64 bits name a position; any other key that is no text is named by how it
is shown. -/
def ofKey : Scalar LooseText → Step
  | .text s => .key (TextLike.shown s)
  | .bool b => .index (if b then 1 else 0)
  | .int n => if -2 ^ 63 ≤ n ∧ n < 2 ^ 63 then .index n else .key (toString n)
  | .null => .key "None"
  | .float x => .key x.toText
  | .bytes b => .key (Text.quotedBytes b)
  | .date d => .key ("datetime.date(" ++ numberList [d.year, d.month, d.day] ++ ")")
  | .moment m => .key (momentText m)

end Step

inductive Complaint where
  /-- Not text. -/
  | notText
  /-- Bytes that are no UTF-8. -/
  | notUtf8
  | notBytes
  | notPath
  /-- Not of a kind that can mean yes or no. -/
  | notBool
  /-- Of such a kind, but neither a yes nor a no. -/
  | unknownBool
  | notNumber
  | unreadableNumber
  | notInteger
  | unreadableInteger
  | fractionalInteger
  | oversizedInteger
  | notFinite
  | notList
  /-- Not a mapping, where the fields of the named record are wanted. -/
  | notRecord (record : String)
  | unknownKey
  | keyNotText
  /-- Not one of the words allowed. -/
  | notAmong (words : List String)
  /-- A number with more digits than are ever written out. -/
  | tooManyDigits
  /-- A rule between several fields is broken. -/
  | brokenRule (rule : String)
  deriving DecidableEq, Repr

namespace Complaint

/-- The words in single quotes, with commas between and `or` before the last. -/
def alternatives (words : List String) : String :=
  let quoted := words.map fun w => "'" ++ w ++ "'"
  match quoted.reverse with
  | [] => ""
  | [w] => w
  | last :: others => ", ".intercalate others.reverse ++ " or " ++ last

def code : Complaint → String
  | notText => "string_type"
  | notUtf8 => "string_unicode"
  | notBytes => "bytes_type"
  | notPath => "path_type"
  | notBool => "bool_type"
  | unknownBool => "bool_parsing"
  | notNumber => "float_type"
  | unreadableNumber => "float_parsing"
  | notInteger => "int_type"
  | unreadableInteger => "int_parsing"
  | fractionalInteger => "int_from_float"
  | oversizedInteger => "int_parsing_size"
  | notFinite => "finite_number"
  | notList => "list_type"
  | notRecord _ => "model_type"
  | unknownKey => "extra_forbidden"
  | keyNotText => "invalid_key"
  | notAmong _ => "enum"
  | tooManyDigits => "value_error"
  | brokenRule _ => "value_error"

def message : Complaint → String
  | notText => "Input should be a valid string"
  | notUtf8 => "Input should be a valid string, unable to parse raw data as a unicode string"
  | notBytes => "Input should be a valid bytes"
  | notPath => "Input is not a valid path for <class 'pathlib.Path'>"
  | notBool => "Input should be a valid boolean"
  | unknownBool => "Input should be a valid boolean, unable to interpret input"
  | notNumber => "Input should be a valid number"
  | unreadableNumber => "Input should be a valid number, unable to parse string as a number"
  | notInteger => "Input should be a valid integer"
  | unreadableInteger => "Input should be a valid integer, unable to parse string as an integer"
  | fractionalInteger => "Input should be a valid integer, got a number with a fractional part"
  | oversizedInteger => "Unable to parse input string as an integer, exceeded maximum size"
  | notFinite => "Input should be a finite number"
  | notList => "Input should be a valid list"
  | notRecord record => "Input should be a valid dictionary or instance of " ++ record
  | unknownKey => "Extra inputs are not permitted"
  | keyNotText => "Keys should be strings"
  | notAmong words => "Input should be " ++ alternatives words
  | tooManyDigits =>
    "Value error, Exceeds the limit (4300 digits) for integer string conversion; "
      ++ "use sys.set_int_max_str_digits() to increase the limit"
  | brokenRule rule => "Value error, " ++ rule

end Complaint

structure Issue where
  place : List Step
  complaint : Complaint
  deriving DecidableEq, Repr

namespace Issue

/-- The same issue, seen from the value that holds the checked one under `step`. -/
def within (step : Step) (issue : Issue) : Issue :=
  { issue with place := step :: issue.place }

end Issue

/-- The outcome of a check: the value, or everything that is wrong. -/
abbrev Checked (α : Type) := Except (List Issue) α

namespace Checked

/-- A complaint about the checked value itself. -/
def complain {α : Type} (c : Complaint) : Checked α :=
  .error [⟨[], c⟩]

/-- Moves the issues of a part to its place in the whole. -/
def inside {α : Type} (step : Step) : Checked α → Checked α :=
  Except.mapError (·.map (Issue.within step))

/-- The issues found, none if the check passed. -/
def issues {α : Type} : Checked α → List Issue
  | .ok _ => []
  | .error is => is

end Checked
end DbImage
