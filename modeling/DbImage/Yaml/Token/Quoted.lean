import DbImage.Number.Reading
import DbImage.Yaml.Token.Basic

/-!
Quoted scalars. Single quotes escape nothing but a doubled quote; double quotes have escapes. In both
a line break is folded: alone it is a space, and of several all but the first stay. An escape by number
may name half of a surrogate pair, so what is read is a list of code points.
-/

namespace DbImage
namespace Yaml

open Number (hexValue? isDigitIn valueOf)

/-- The escapes that stand for one character. -/
def shortEscape? (c : Char) : Option Char :=
  match c with
  | '0' => some '\u0000'
  | 'a' => some '\u0007'
  | 'b' => some '\u0008'
  | 't' => some '\t'
  | '\t' => some '\t'
  | 'n' => some '\n'
  | 'v' => some '\u000b'
  | 'f' => some '\u000c'
  | 'r' => some '\r'
  | 'e' => some '\u001b'
  | ' ' => some ' '
  | '"' => some '"'
  | '\\' => some '\\'
  | '/' => some '/'
  | 'N' => some '\u0085'
  | '_' => some '\u00a0'
  | 'L' => some '\u2028'
  | 'P' => some '\u2029'
  | _ => none

/-- The number of hexadecimal digits that follow the letter of a numeric escape. -/
def escapeWidth? (c : Char) : Option Nat :=
  match c with
  | 'x' => some 2
  | 'u' => some 4
  | 'U' => some 8
  | _ => none

/-- The code point of a numeric escape. Past the last one there is no value. -/
def pointOfCode (code : Nat) : Except Fault CodePoint :=
  match CodePoint.ofNat? code with
  | some p => .ok p
  | none => if code < 0x80000000 then .error .badValue else .error .tooLarge

def scanCode (width : Nat) (k : Cursor) : Except Fault (CodePoint × Cursor) :=
  let digits := k.rest.take width
  if digits.length = width ∧ digits.all (isDigitIn 16) then
    (pointOfCode (valueOf 16 digits)).map (·, k.skip width)
  else .error .malformed

/-- Breaks between the lines of a scalar, with the blanks around them. A marker of a document may not
stand inside. -/
def scanBreaks : Nat → Cursor → Except Fault (List Char × Cursor)
  | 0, _ => .error .malformed
  | fuel + 1, k =>
    if k.atMarker then .error .malformed
    else
      let k := k.skipWhile fun c => c == ' ' || c == '\t'
      match k.takeBreak with
      | ([], _) => .ok ([], k)
      | (break_, k) => (scanBreaks fuel k).map fun (breaks, k) => (break_ ++ breaks, k)

/-- The text that a folded run of breaks leaves: the first break becomes a space if it stands alone
and vanishes if it does not. Separators other than the plain break stay. -/
def foldBreaks (first breaks : List Char) : List Char :=
  if first ≠ ['\n'] then first ++ breaks
  else if breaks.isEmpty then [' ']
  else breaks

/-- Blanks inside a quoted scalar: kept within a line, folded over breaks. -/
def scanQuotedSpaces (fuel : Nat) (k : Cursor) : Except Fault (List Char × Cursor) :=
  let blanks := k.run fun c => c == ' ' || c == '\t'
  let k := k.skip blanks.length
  match k.peek with
  | none => .error .malformed
  | some _ =>
    match k.takeBreak with
    | ([], _) => .ok (blanks, k)
    | (first, k) => (scanBreaks fuel k).map fun (breaks, k) => (foldBreaks first breaks, k)

/-- What an escape stands for, from the character after the backslash on. An escaped break and the
breaks after it join the lines. -/
def scanEscape (fuel : Nat) (k : Cursor) : Except Fault (List CodePoint × Cursor) :=
  match k.peek with
  | none => .error .malformed
  | some c =>
    match shortEscape? c with
    | some d => .ok ([.char d], k.next)
    | none =>
      match escapeWidth? c with
      | some width => (scanCode width k.next).map fun (d, k) => ([d], k)
      | none =>
        if isBreak c then
          (scanBreaks fuel k.takeBreak.2).map fun (breaks, k) => (breaks.map .char, k)
        else .error .malformed

/-- Reads a quoted scalar up to and past its closing quote. -/
def scanQuotedFrom (double : Bool) : Nat → Cursor → Except Fault (List CodePoint × Cursor)
  | 0, _ => .error .malformed
  | fuel + 1, k =>
    match k.rest with
    | [] => .error .malformed
    | c :: rest =>
      if !double && c == '\'' && rest.head? == some '\'' then
        (scanQuotedFrom double fuel (k.skip 2)).map fun (s, k) => (.char '\'' :: s, k)
      else if c == (if double then '"' else '\'') then .ok ([], k.next)
      else if double && c == '\\' then do
        let (front, k) ← scanEscape fuel k.next
        let (back, k) ← scanQuotedFrom double fuel k
        return (front ++ back, k)
      else if c == ' ' || c == '\t' || isBreak c then do
        let (front, k) ← scanQuotedSpaces fuel k
        let (back, k) ← scanQuotedFrom double fuel k
        return (front.map .char ++ back, k)
      else (scanQuotedFrom double fuel k.next).map fun (s, k) => (.char c :: s, k)

/-- Reads a quoted scalar, from its opening quote on. -/
def scanQuoted (double : Bool) (k : Cursor) : Except Fault (List CodePoint × Cursor) :=
  scanQuotedFrom double (k.rest.length + 1) k.next

theorem scanEscape_short {fuel : Nat} {k : Cursor} {c d : Char} (hc : k.peek = some c)
    (hd : shortEscape? c = some d) : scanEscape fuel k = .ok ([.char d], k.next) := by
  simp [scanEscape, hc, hd]

end Yaml
end DbImage
