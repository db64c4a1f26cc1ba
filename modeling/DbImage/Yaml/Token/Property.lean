import DbImage.Number.Reading
import DbImage.Yaml.Token.Block

/-!
What can stand before a node, and before a document: anchors, aliases, tags and directives.
-/

namespace DbImage
namespace Yaml

open Number (isDigitIn valueOf)

/-- Letters and digits of ASCII, the hyphen and the underscore. -/
def isWordChar (c : Char) : Bool :=
  c.isAlphanum || c == '-' || c == '_'

/-- What may follow the name of an anchor. -/
def endsName (c : Option Char) : Bool :=
  endsWord c || c.any fun c =>
    c == '?' || c == ':' || c == ',' || c == ']' || c == '}' || c == '%' || c == '@' || c == '`'

/-- Reads the name of an anchor or an alias, from its indicator on. -/
def scanName (k : Cursor) : Except Fault (List Char × Cursor) :=
  let k := k.next
  let name := k.run isWordChar
  let k := k.skip name.length
  if name.isEmpty || !endsName k.peek then .error .malformed else .ok (name, k)

/-- The characters that a tag may hold as they are. -/
def isUriChar (c : Char) : Bool :=
  c.isAlphanum || "-;/?:@&=+$,_.!~*'()[]".toList.contains c

/-- Reads `%` and two hexadecimal digits, as often as they stand in a row. -/
def escapedBytes : Nat → Cursor → Except Fault (List UInt8 × Cursor)
  | 0, k => .ok ([], k)
  | fuel + 1, k =>
    match k.rest with
    | '%' :: a :: b :: _ =>
      if isDigitIn 16 a && isDigitIn 16 b then
        (escapedBytes fuel (k.skip 3)).map fun (bytes, k) =>
          (UInt8.ofNat (valueOf 16 [a, b]) :: bytes, k)
      else .error .malformed
    | '%' :: _ => .error .malformed
    | _ => .ok ([], k)

/-- Reads the text of a tag. Escaped bytes must be UTF-8. -/
def scanUriFrom : Nat → Cursor → Except Fault (List Char × Cursor)
  | 0, k => .ok ([], k)
  | fuel + 1, k =>
    match k.peek with
    | none => .ok ([], k)
    | some c =>
      if c = '%' then do
        let (bytes, k) ← escapedBytes fuel k
        match String.fromUTF8? ⟨bytes.toArray⟩ with
        | none => .error .malformed
        | some s =>
          let (more, k) ← scanUriFrom fuel k
          return (s.toList ++ more, k)
      else if isUriChar c then
        (scanUriFrom fuel k.next).map fun (more, k) => (c :: more, k)
      else .ok ([], k)

def scanUri (k : Cursor) : Except Fault (List Char × Cursor) := do
  let (uri, after) ← scanUriFrom (k.rest.length + 1) k
  if after.index = k.index then .error .malformed
  return (uri, after)

/-- Reads the handle of a tag: `!` alone, or a word between two of them. -/
def scanHandle (k : Cursor) : Except Fault (List Char × Cursor) :=
  if k.peek ≠ some '!' then .error .malformed
  else if k.peekAt 1 = some ' ' then .ok (['!'], k.next)
  else
    let word := k.next.run isWordChar
    let after := k.next.skip word.length
    if after.peek = some '!' then .ok ('!' :: word ++ ['!'], after.next)
    else .error .malformed

/-- Some `!` stands before the next space or break. -/
def hasHandle (k : Cursor) : Bool :=
  (k.next.run fun c => !endsPart (some c)).contains '!'

def scanTag (k : Cursor) : Except Fault (Token × Cursor) := do
  let ((handle?, suffix), k) ←
    if k.peekAt 1 = some '<' then do
      let (uri, k) ← scanUri (k.skip 2)
      if k.peek ≠ some '>' then .error .malformed
      pure ((none, uri), k.next)
    else if endsWord (k.peekAt 1) then pure ((none, ['!']), k.next)
    else do
      let (handle, k) ← if hasHandle k then scanHandle k else pure (['!'], k.next)
      let (uri, k) ← scanUri k
      pure ((some handle, uri), k)
  if endsPart k.peek then return (.tag handle? suffix, k) else .error .malformed

def scanNumber (k : Cursor) : Except Fault (Nat × Cursor) :=
  let digits := k.run Char.isDigit
  if digits.isEmpty then .error .malformed
  else .ok (valueOf 10 digits, k.skip digits.length)

def scanVersion (k : Cursor) : Except Fault (Directive × Cursor) := do
  let (major, k) ← scanNumber k.skipSpaces
  if k.peek ≠ some '.' then .error .malformed
  let (minor, k) ← scanNumber k.next
  if endsPart k.peek then return (.version major minor, k) else .error .malformed

def scanTagDirective (k : Cursor) : Except Fault (Directive × Cursor) := do
  let (handle, k) ← scanHandle k.skipSpaces
  if k.peek ≠ some ' ' then .error .malformed
  let (uri, k) ← scanUri k.skipSpaces
  if endsPart k.peek then return (.tag handle uri, k) else .error .malformed

/-- Reads a directive, from its `%` on, to the end of its line. -/
def scanDirective (k : Cursor) : Except Fault (Token × Cursor) := do
  let k := k.next
  let name := k.run isWordChar
  let k := k.skip name.length
  if name.isEmpty || !endsPart k.peek then .error .malformed
  let (directive, k) ←
    if name = ['Y', 'A', 'M', 'L'] then scanVersion k
    else if name = ['T', 'A', 'G'] then scanTagDirective k
    else pure (Directive.other, k.skipLine)
  return (.directive directive, ← scanIgnoredLine k)

end Yaml
end DbImage
