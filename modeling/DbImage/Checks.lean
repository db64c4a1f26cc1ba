import DbImage.Issue
import DbImage.Number.Reading

/-!
Checks of single values. Each takes a value of any shape and gives what it means for a field of one
kind, or the complaint. They are lenient where the meaning is plain: bytes that are UTF-8 serve as
text, and numbers and words serve as truth values. The checks that a configuration needs take loose
texts as well.
-/

namespace DbImage
namespace Checks

open Number

/-- Text, or bytes that are its UTF-8 form. -/
def text {τ : Type} [TextLike τ] : Datum τ → Checked τ
  | .scalar (.text s) => .ok s
  | .scalar (.bytes b) =>
    match String.fromUTF8? b with
    | some s => .ok (TextLike.ofString s)
    | none => Checked.complain .notUtf8
  | _ => Checked.complain .notText

def optional {τ α : Type} (check : Datum τ → Checked α) : Datum τ → Checked (Option α)
  | .scalar .null => .ok none
  | d => (check d).map some

def noWords : List String := ["0", "off", "f", "false", "n", "no"]

def yesWords : List String := ["1", "on", "t", "true", "y", "yes"]

def boolOfWord (s : String) : Checked Bool :=
  let word := String.ofList (s.toList.map Char.toLower)
  if noWords.contains word then .ok false
  else if yesWords.contains word then .ok true
  else Checked.complain .unknownBool

def boolOfInt (n : Int) : Checked Bool :=
  if n = 0 then .ok false
  else if n = 1 then .ok true
  else Checked.complain .unknownBool

/-- The whole numbers that 64 bits hold, without the least and the greatest. -/
def isInner64 (n : Int) : Bool :=
  decide (-2 ^ 63 < n) && decide (n < 2 ^ 63)

/-- A truth value: one itself, a word for one, or the number 0 or 1. A whole number is looked at if 64
bits hold it. -/
def bool {τ : Type} [TextLike τ] : Datum τ → Checked Bool
  | .scalar (.bool b) => .ok b
  | .scalar (.text s) =>
    match TextLike.toString? s with
    | some s => boolOfWord s
    | none => Checked.complain .notUtf8
  | .scalar (.bytes b) =>
    match String.fromUTF8? b with
    | some s => boolOfWord s
    | none => Checked.complain .unknownBool
  | .scalar (.int n) =>
    if -2 ^ 63 ≤ n ∧ n < 2 ^ 63 then boolOfInt n else Checked.complain .notBool
  | .scalar (.float x) =>
    match x.toInt? with
    | some n => if isInner64 n then boolOfInt n else Checked.complain .notBool
    | none => Checked.complain .notBool
  | _ => Checked.complain .notBool

/-- Bytes, or text for its UTF-8 form. -/
def bytes : Datum → Checked ByteArray
  | .scalar (.bytes b) => .ok b
  | .scalar (.text s) => .ok s.toUTF8
  | _ => Checked.complain .notBytes

/-- A path, or text that names one. -/
def path : Datum → Checked Files.Reference
  | .path r => .ok r
  | .scalar (.text s) => .ok (.ofText s)
  | _ => Checked.complain .notPath

/-- Blanks around a number in a field: the Unicode spaces and line ends. -/
def isSpace (c : Char) : Bool :=
  Text.isBlank c && !(decide (0x1c ≤ c.toNat) && decide (c.toNat ≤ 0x1f))

/-- Drops the underscores of a number that has them only singly and inside. -/
def dropUnderscores (s : List Char) : List Char :=
  if s.head? = some '_' ∨ s.getLast? = some '_' ∨ (s.zip (s.drop 1)).contains ('_', '_') then s
  else s.filter (· ≠ '_')

def numberOfText (s : String) : Checked Double :=
  let s := Text.trim isSpace s.toList
  match (Double.ofPlain? s).or (Double.ofPlain? (dropUnderscores s)) with
  | some x => .ok x
  | none => Checked.complain .unreadableNumber

/-- A floating-point number, or a whole number, truth value or text that gives one. -/
def number : Datum → Checked Double
  | .scalar (.float x) => .ok x
  | .scalar (.bool b) => .ok (Double.ofRatio false (if b then 1 else 0) 1)
  | .scalar (.int n) =>
    match Double.ofInt? n with
    | some x => .ok x
    | none => Checked.complain .notNumber
  | .scalar (.text s) => numberOfText s
  | .scalar (.bytes b) =>
    match String.fromUTF8? b with
    | some s => numberOfText s
    | none => Checked.complain .unreadableNumber
  | _ => Checked.complain .notNumber

/-- Drops zeros in front of a digit, and the underscores among them. -/
def dropLeadingZeros (s : List Char) : List Char :=
  match s with
  | '0' :: rest =>
    match rest.dropWhile fun c => c == '0' || c == '_' with
    | [] => (s.getLast?.toList)
    | '.' :: after => '0' :: '.' :: after
    | digits => digits
  | s => s

/-- Drops a point with nothing but zeros after it. -/
def dropZeroFraction (s : List Char) : List Char :=
  match s.dropWhile (· ≠ '.') with
  | '.' :: zeros => if zeros.all (· == '0') then s.takeWhile (· ≠ '.') else s
  | _ => s

/-- Digits with an optional sign; leading zeros, single underscores and a fraction of zeros do no
harm. -/
def integerOfText (s : String) : Checked Int :=
  let (negative, s) := splitSign (Text.trim isSpace s.toList)
  let digits := dropUnderscores (dropZeroFraction (dropLeadingZeros s))
  if digits.isEmpty || !digits.all (isDigitIn 10) then Checked.complain .unreadableInteger
  else if digitLimit < digits.length then Checked.complain .oversizedInteger
  else
    let n : Int := valueOf 10 digits
    .ok (if negative then -n else n)

/-- A whole number, or a value that gives one without loss. -/
def integer : Datum → Checked Int
  | .scalar (.int n) => .ok n
  | .scalar (.bool b) => .ok (if b then 1 else 0)
  | .scalar (.float x) =>
    if !x.isFinite then Checked.complain .notFinite
    else
      match x.toInt? with
      | some n => if isInner64 n then .ok n else Checked.complain .oversizedInteger
      | none => Checked.complain .fractionalInteger
  | .scalar (.text s) => integerOfText s
  | .scalar (.bytes b) =>
    match String.fromUTF8? b with
    | some s => integerOfText s
    | none => Checked.complain .unreadableInteger
  | _ => Checked.complain .notInteger

/-- The check of a field that may be missing. -/
def field {α : Type} (fields : List (String × Datum)) (name : String) (missing : α)
    (check : Datum → Checked α) : Checked α :=
  match fields.find? (·.1 == name) with
  | some (_, d) => (check d).inside (.key name)
  | none => .ok missing

end Checks
end DbImage
