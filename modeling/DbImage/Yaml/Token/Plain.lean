import DbImage.Yaml.Token.Basic

/-!
Plain scalars: text without quotes, as far as nothing in it can be structure. It may go on over
several lines, whose breaks are folded.
-/

namespace DbImage
namespace Yaml

/-- The characters that open, close and divide flow collections. -/
def isFlowMark (c : Char) : Bool :=
  c == ',' || c == '[' || c == ']' || c == '{' || c == '}'

/-- A plain scalar ends before `c`, when `next` follows. -/
def stopsPlain (inFlow : Bool) (c : Char) (next : Option Char) : Bool :=
  endsWord (some c)
    || (c == ':' && (endsWord next || (inFlow && next.any isFlowMark)))
    || (inFlow && (isFlowMark c || c == '?'))

/-- The part of a plain scalar up to the next blank. -/
def plainRun (inFlow : Bool) : List Char → List Char
  | [] => []
  | c :: rest => if stopsPlain inFlow c rest.head? then [] else c :: plainRun inFlow rest

/-- The blanks and breaks after the first break in a plain scalar. Before the marker of a document
there is no more of the scalar. -/
def plainBreaks : Nat → Cursor → Option (List Char) × Cursor
  | 0, k => (some [], k)
  | fuel + 1, k =>
    if k.atMarker then (none, k)
    else
      let k := k.skipSpaces
      match k.takeBreak with
      | ([], _) => (some [], k)
      | (break_, k) =>
        let (breaks?, k) := plainBreaks fuel k
        (breaks?.map (break_ ++ ·), k)

/-- What blanks and breaks between two parts of a plain scalar stand for, empty if the scalar ends
here, and whether a line was ended. -/
def plainSpaces (k : Cursor) : (List Char × Bool) × Cursor :=
  let spaces := k.run (· == ' ')
  let k := k.skip spaces.length
  match k.takeBreak with
  | ([], _) => ((spaces, false), k)
  | (first, k) =>
    let (breaks?, k) := plainBreaks (k.rest.length + 1) k
    match breaks? with
    | none => (([], true), k)
    | some breaks =>
      let folded :=
        if first ≠ ['\n'] then first ++ breaks
        else if breaks.isEmpty then [' ']
        else breaks
      ((folded, true), k)

/-- Reads on after `spaces`. The flag says whether the text read last ended a line. -/
def plainFrom (inFlow : Bool) (indent : Nat) :
    Nat → List Char → Bool → Cursor → (List Char × Bool) × Cursor
  | 0, _, ended, k => (([], ended), k)
  | fuel + 1, spaces, ended, k =>
    let text := if k.peek = some '#' then [] else plainRun inFlow k.rest
    if text.isEmpty then (([], ended), k)
    else
      let ((after, ended), k) := plainSpaces (k.skip text.length)
      if after.isEmpty ∨ k.peek = some '#' ∨ (!inFlow ∧ k.column < indent) then
        ((spaces ++ text, ended), k)
      else
        let ((more, ended), k) := plainFrom inFlow indent fuel after ended k
        ((spaces ++ text ++ more, ended), k)

/-- Reads a plain scalar. Lines below the first must be indented by `indent` at least, unless a flow
collection is open. -/
def scanPlain (inFlow : Bool) (indent : Nat) (k : Cursor) : (List Char × Bool) × Cursor :=
  plainFrom inFlow indent (k.rest.length + 1) [] false k

end Yaml
end DbImage
