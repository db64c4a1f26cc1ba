import DbImage.Document.Json
import DbImage.Text.Escape
import DbImage.Yaml.Scalar.Form

/-!
Documents as YAML, in ASCII, in block style. A text is written plain where that reads back as the same
text, else in single quotes, and in double quotes where only escapes will do. Long texts are folded.
-/

namespace DbImage
namespace Document
namespace YamlText

open Yaml (endsWord)

/-- A line that has grown past this column is folded where it can be. -/
def width : Nat := 80

/-- Letters and digits aside, the characters that mean something at the start of a plain text. -/
def isIndicator (c : Char) : Bool :=
  "#,[]{}&*!|>'\"%@`".toList.contains c

/-- A character that would give the rest of the text another meaning, given those around it. -/
def isStructural (before? : Option Char) (c : Char) (after? : Option Char) : Bool :=
  match before? with
  | none =>
    isIndicator c || ((c == '?' || c == ':' || c == '-') && endsWord after?)
  | some before => (c == ':' && endsWord after?) || (c == '#' && endsWord (some before))

def holdsStructure : Option Char → List Char → Bool
  | _, [] => false
  | before?, c :: rest => isStructural before? c rest.head? || holdsStructure (some c) rest

/-- The start of a text that could be taken for the mark of a document. -/
def startsMarker (s : List Char) : Bool :=
  ['-', '-', '-'].isPrefixOf s || ['.', '.', '.'].isPrefixOf s

/-- A character that only an escape can give in ASCII. -/
def needsEscape (c : Char) : Bool :=
  !(c == '\n' || (decide (0x20 ≤ c.toNat) && decide (c.toNat ≤ 0x7e)))

def holdsPair (a b : Char) (s : List Char) : Bool :=
  (s.zip (s.drop 1)).contains (a, b)

inductive Style where
  | plain
  | single
  | double
  deriving DecidableEq, Repr

/-- Single quotes keep everything but blanks around a line break. -/
def allowsSingle (s : List Char) : Bool :=
  !s.any needsEscape && !holdsPair '\n' ' ' s && !holdsPair ' ' '\n' s

/-- A plain text is one line without blanks at its ends, holds no structure, and does not look like
anything but text. -/
def allowsPlain (s : List Char) : Bool :=
  Yaml.Form.tagOf s == .str && !s.any needsEscape && !s.contains '\n'
    && s.head? != some ' ' && s.getLast? != some ' '
    && !holdsStructure none s && !startsMarker s

def styleOf (s : List Char) : Style :=
  if allowsPlain s then .plain else if allowsSingle s then .single else .double

def spaces (n : Nat) : List Char := List.replicate n ' '

def newLine (indent : Nat) : List Char := '\n' :: spaces indent

/-- Writes plain text from `column` on, after `pending` spaces that are not yet written. A single
space may become a line break. -/
def plainFrom (indent : Nat) : Nat → Nat → List Char → List Char
  | _, pending, [] => spaces pending
  | column, pending, c :: rest =>
    if c = ' ' then plainFrom indent column (pending + 1) rest
    else if pending = 1 ∧ width < column then
      newLine indent ++ c :: plainFrom indent (indent + 1) 0 rest
    else spaces pending ++ c :: plainFrom indent (column + pending + 1) 0 rest

/-- What stands between the last visible character and the next one. -/
inductive Gap where
  | none
  | spaces (n : Nat) (atStart : Bool)
  | breaks (n : Nat)
  deriving DecidableEq, Repr

namespace Gap

/-- One more space or break. -/
def extend (g : Gap) (c : Char) (atStart : Bool) : Gap :=
  if c = '\n' then
    match g with
    | breaks n => breaks (n + 1)
    | _ => breaks 1
  else
    match g with
    | spaces n start => spaces (n + 1) start
    | _ => spaces 1 atStart

/-- How the gap is written from `column` on, and the column after it. In quotes a break is doubled;
a single space inside may become one. -/
def write (indent column : Nat) (atEnd : Bool) : Gap → List Char × Nat
  | none => ([], column)
  | spaces n start =>
    if n = 1 ∧ width < column ∧ !start ∧ !atEnd then (newLine indent, indent)
    else (YamlText.spaces n, column + n)
  | breaks n => (List.replicate n '\n' ++ newLine indent, indent)

/-- A gap of another kind ends this one. -/
def endsAt (g : Gap) (c : Char) : Bool :=
  match g with
  | none => false
  | spaces _ _ => c != ' '
  | breaks _ => c != '\n'

end Gap

/-- Writes the inside of single quotes. -/
def singleFrom (indent : Nat) : Bool → Nat → Gap → List Char → List Char
  | _, column, gap, [] => (gap.write indent column true).1
  | first, column, gap, c :: rest =>
    let (written, column, gap) :=
      if gap.endsAt c then
        let (written, column) := gap.write indent column false
        (written, column, Gap.none)
      else ([], column, gap)
    written ++
      if c = ' ' ∨ c = '\n' then singleFrom indent false column (gap.extend c first) rest
      else if c = '\'' then '\'' :: '\'' :: singleFrom indent false (column + 2) gap rest
      else c :: singleFrom indent false (column + 1) gap rest

def shortEscape? (c : Char) : Option Char :=
  match c with
  | '\u0000' => some '0'
  | '\u0007' => some 'a'
  | '\u0008' => some 'b'
  | '\t' => some 't'
  | '\n' => some 'n'
  | '\u000b' => some 'v'
  | '\u000c' => some 'f'
  | '\r' => some 'r'
  | '\u001b' => some 'e'
  | '"' => some '"'
  | '\\' => some '\\'
  | '\u0085' => some 'N'
  | '\u00a0' => some '_'
  | '\u2028' => some 'L'
  | '\u2029' => some 'P'
  | _ => none

def hexText (width n : Nat) : List Char :=
  (Text.hexDigits width n).map Char.toUpper

def numericEscape (n : Nat) : List Char :=
  if n ≤ 0xff then '\\' :: 'x' :: hexText 2 n
  else if n ≤ 0xffff then '\\' :: 'u' :: hexText 4 n
  else '\\' :: 'U' :: hexText 8 n

def escape (c : Char) : List Char :=
  match shortEscape? c with
  | some e => ['\\', e]
  | none => numericEscape c.toNat

def isEscaped (c : Char) : Bool :=
  c == '"' || c == '\\' || c == '\n' || needsEscape c

/-- How a code point is written in double quotes, and whether that is an escape. -/
def spelling : CodePoint → Bool × List Char
  | .char c => if isEscaped c then (true, escape c) else (false, [c])
  | p => (true, numericEscape p.toNat)

/-- Breaks a double-quoted line. A space that the next line begins with is kept by a backslash. -/
def fold (indent : Nat) (next? : Option CodePoint) : List Char × Nat :=
  if next? = some (.char ' ') then ('\\' :: newLine indent ++ ['\\'], indent + 1)
  else ('\\' :: newLine indent, indent)

/-- Writes the inside of double quotes from `column` on. A line may be broken before a space, after an
escape and before what follows one (`fresh`), but not at either end of the text. -/
def doubleFrom (indent : Nat) : Bool → Bool → Nat → List CodePoint → List Char
  | _, _, _, [] => []
  | first, fresh, column, p :: rest =>
    let inside := !first && !rest.isEmpty
    let (escaped, e) := spelling p
    if escaped then
      if inside && decide (width + 1 < column + e.length) then
        let (broken, column) := fold indent rest.head?
        e ++ broken ++ doubleFrom indent false true column rest
      else e ++ doubleFrom indent false true (column + e.length) rest
    else if inside && (p == .char ' ' || fresh) && decide (width < column) then
      let (broken, column) := fold indent (some p)
      broken ++ e ++ doubleFrom indent false false (column + 1) rest
    else e ++ doubleFrom indent false false (column + 1) rest

/-- Writes a text after `column` columns, with further lines indented by `indent`. Half of a surrogate
pair needs an escape. -/
def scalar {τ : Type} [TextLike τ] (indent column : Nat) (t : τ) : List Char :=
  let double := '"' :: doubleFrom indent true true (column + 1) (TextLike.points t) ++ ['"']
  match TextLike.toString? t with
  | none => double
  | some s =>
    match styleOf s.toList with
    | .plain => plainFrom indent column 0 s.toList
    | .single => '\'' :: singleFrom indent true (column + 1) .none s.toList ++ ['\'']
    | .double => double

/-- A number keeps a point before its exponent. -/
def number (x : Number.Double) : String :=
  match x with
  | .nan => ".nan"
  | .infinite negative => if negative then "-.inf" else ".inf"
  | x =>
    let s := x.toText.toList
    if s.contains '.' then String.ofList s
    else String.ofList (s.flatMap fun c => if c = 'e' then ['.', '0', 'e'] else [c])

end YamlText

open YamlText (newLine)

variable {τ : Type} [TextLike τ]

mutual

/-- Writes what follows a key or the mark of an item, from `column` on, inside a collection that is
indented by `indent`. Lists under a key are not indented further. -/
def yamlAfter (indent column : Nat) (underKey : Bool) : Document τ → List Char
  | text s => ' ' :: YamlText.scalar (indent + 2) (column + 1) s
  | integer n => ' ' :: (toString n).toList
  | number x => ' ' :: (YamlText.number x).toList
  | list [] => [' ', '[', ']']
  | record [] => [' ', '\x7b', '\x7d']
  | list (d :: rest) =>
    let inner := if underKey then indent else indent + 2
    let first := yamlAfter inner (inner + 1) false d
    (if underKey then newLine inner else [' ']) ++ '-' :: first ++ yamlItems inner rest
  | record (field :: rest) =>
    let inner := indent + 2
    (if underKey then newLine inner else [' ']) ++ yamlField inner field ++ yamlFields inner rest

/-- Further items, each on a new line. -/
def yamlItems (indent : Nat) : List (Document τ) → List Char
  | [] => []
  | d :: rest => newLine indent ++ '-' :: yamlAfter indent (indent + 1) false d ++ yamlItems indent rest

/-- Further fields, each on a new line. -/
def yamlFields (indent : Nat) : List (String × Document τ) → List Char
  | [] => []
  | field :: rest => newLine indent ++ yamlField indent field ++ yamlFields indent rest

def yamlField (indent : Nat) : String × Document τ → List Char
  | (name, d) =>
    let key := YamlText.scalar (indent + 2) indent name
    key ++ ':' :: yamlAfter indent (indent + key.length + 1) true d

end

def toYaml (fields : List (String × Document τ)) : String :=
  match fields with
  | [] => "\x7b\x7d\n"
  | field :: rest => String.ofList (yamlField 0 field ++ yamlFields 0 rest ++ ['\n'])

end Document
end DbImage
