import DbImage.Text.Escape
import DbImage.Text.Unprintable

/-!
Quoted text for messages. The quote is single unless the text holds a single quote and no double
one. What has no visible form is written as an escape, so a message stays on one line.
-/

namespace DbImage
namespace Text

/-- The quote that needs the fewest escapes. -/
def quoteFor (holds : Char → Bool) : Char :=
  if holds '\'' && !holds '"' then '"' else '\''

/-- The escape of a control or another invisible character: two, four or eight digits, as few as
hold it. -/
def numericEscape (n : Nat) : List Char :=
  if n < 0x100 then '\\' :: 'x' :: hexDigits 2 n
  else if n < 0x10000 then '\\' :: 'u' :: hexDigits 4 n
  else '\\' :: 'U' :: hexDigits 8 n

def shortEscape? (c : Char) : Option (List Char) :=
  if c = '\\' then some ['\\', '\\']
  else if c = '\n' then some ['\\', 'n']
  else if c = '\r' then some ['\\', 'r']
  else if c = '\t' then some ['\\', 't']
  else none

def quoteChar (quote c : Char) : List Char :=
  if c = quote then ['\\', c]
  else (shortEscape? c).getD (if isPrintable c then [c] else numericEscape c.toNat)

def quoted (s : String) : String :=
  let quote := quoteFor s.toList.contains
  String.ofList (quote :: s.toList.flatMap (quoteChar quote) ++ [quote])

/-- Bytes outside visible ASCII are always escaped. -/
def quoteByte (quote : Char) (b : UInt8) : List Char :=
  let c := Char.ofNat b.toNat
  if b.toNat < 0x7f then quoteChar quote c else numericEscape b.toNat

/-- Bytes in quotes, with a `b` in front. -/
def quotedBytes (bytes : ByteArray) : String :=
  let quote := quoteFor fun c => bytes.data.toList.contains (UInt8.ofNat c.toNat)
  String.ofList ('b' :: quote :: bytes.data.toList.flatMap (quoteByte quote) ++ [quote])

end Text
end DbImage
