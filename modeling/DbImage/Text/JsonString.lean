import DbImage.Text.Loose

/-!
JSON strings in ASCII. `jsonString` is the plain form; `embedded` also escapes the four characters
that could end the string's surroundings in markup. Neither holds a line end, so a quoted value
stays on its line. Half of a surrogate pair is escaped like any other UTF-16 unit.
-/

namespace DbImage
namespace Text

/-- An escape of four digits for each UTF-16 unit of the character. -/
def unitEscapes (n : Nat) : List Char :=
  (utf16Units n).flatMap fun unit => '\\' :: 'u' :: hexDigits 4 unit

/-- The characters with an escape of two characters. -/
def jsonEscape? (c : Char) : Option Char :=
  if c = '"' then some '"'
  else if c = '\\' then some '\\'
  else if c = '\n' then some 'n'
  else if c = '\r' then some 'r'
  else if c = '\t' then some 't'
  else if c = '\u0008' then some 'b'
  else if c = '\u000c' then some 'f'
  else none

/-- Visible ASCII stands for itself. -/
def jsonChar (c : Char) : List Char :=
  match jsonEscape? c with
  | some e => ['\\', e]
  | none => if 0x20 ≤ c.toNat ∧ c.toNat < 0x7f then [c] else unitEscapes c.toNat

/-- Characters that markup around the string could read. -/
def isMarkup (c : Char) : Bool :=
  c == '<' || c == '>' || c == '&' || c == '\''

def embeddedChar (c : Char) : List Char :=
  if isMarkup c then unitEscapes c.toNat else jsonChar c

/-- Half of a surrogate pair is a UTF-16 unit by itself. -/
def jsonPoint (char : Char → List Char) : CodePoint → List Char
  | .char c => char c
  | p => unitEscapes p.toNat

section

variable {τ : Type} [TextLike τ]

def jsonStringWith (char : Char → List Char) (s : τ) : List Char :=
  '"' :: (TextLike.points s).flatMap (jsonPoint char) ++ ['"']

def jsonString (s : τ) : String :=
  String.ofList (jsonStringWith jsonChar s)

/-- The JSON string that denotes `s`, safe inside markup. -/
def embedded (s : τ) : String :=
  String.ofList (jsonStringWith embeddedChar s)

end

theorem jsonStringWith_string (char : Char → List Char) (s : String) :
    jsonStringWith char s = '"' :: s.toList.flatMap char ++ ['"'] := by
  rw [jsonStringWith, TextLike.points_string, List.flatMap_map]
  rfl

end Text
end DbImage
