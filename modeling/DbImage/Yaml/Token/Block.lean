import DbImage.Yaml.Token.Basic

/-!
Block scalars: the lines below `|` or `>`, as far as they are indented. What a header says about the
line ends at the bottom, and the first line's indentation, decide what the scalar keeps.
-/

namespace DbImage
namespace Yaml

/-- What happens to the line ends at the bottom of a block scalar. -/
inductive Chomping where
  /-- One is kept. -/
  | clip
  /-- None is kept. -/
  | strip
  /-- All are kept. -/
  | keep
  deriving DecidableEq, Repr

def chomping? (c : Char) : Option Chomping :=
  if c = '+' then some .keep else if c = '-' then some .strip else none

/-- An explicit indentation is a digit other than zero. -/
def increment? (c : Char) : Except Fault (Option Nat) :=
  if c = '0' then .error .malformed
  else if c.isDigit then .ok (some (c.toNat - '0'.toNat))
  else .ok none

/-- Reads the indicators after `|` or `>`, in either order. -/
def scanIndicators (k : Cursor) : Except Fault ((Chomping × Option Nat) × Cursor) := do
  let (c, k) := takeChomping k
  let (i, k) ← takeIncrement k
  let (c', k) := match c, i with
    | none, some _ => takeChomping k
    | _, _ => (c, k)
  if endsPart k.peek then return ((c'.getD .clip, i), k) else .error .malformed
where
  takeChomping (k : Cursor) : Option Chomping × Cursor :=
    match k.peek.bind chomping? with
    | some c => (some c, k.next)
    | none => (none, k)
  takeIncrement (k : Cursor) : Except Fault (Option Nat × Cursor) :=
    match k.peek with
    | none => .ok (none, k)
    | some c => (increment? c).map fun i => (i, if i.isSome then k.next else k)

/-- The rest of a header or a directive: nothing but blanks and a comment. -/
def scanIgnoredLine (k : Cursor) : Except Fault Cursor :=
  let k := k.skipSpaces
  let k := if k.peek = some '#' then k.skipLine else k
  if endsLine k.peek then .ok k.takeBreak.2 else .error .malformed

def skipIndent (indent : Nat) (k : Cursor) : Cursor :=
  let spaces := (k.run (· == ' ')).length
  k.skip (min spaces (indent - k.column))

/-- The breaks before the next line of text, when the indentation is known. -/
def blockBreaks (indent : Nat) : Nat → Cursor → List Char × Cursor
  | 0, k => ([], k)
  | fuel + 1, k =>
    let k := skipIndent indent k
    match k.takeBreak with
    | ([], _) => ([], k)
    | (break_, k) =>
      let (breaks, k) := blockBreaks indent fuel k
      (break_ ++ breaks, k)

/-- The breaks before the first line of text, and the greatest column that the spaces among them
reach. -/
def leadingBreaks : Nat → Nat → Cursor → List Char × Nat × Cursor
  | 0, widest, k => ([], widest, k)
  | fuel + 1, widest, k =>
    let k := k.skipSpaces
    let widest := max widest k.column
    match k.takeBreak with
    | ([], _) => ([], widest, k)
    | (break_, k) =>
      let (breaks, widest, k) := leadingBreaks fuel widest k
      (break_ ++ breaks, widest, k)

def isBlankChar (c : Option Char) : Bool :=
  c == some ' ' || c == some '\t'

/-- What joins a line of text to the next: in a folded scalar a single break between two lines that
start without blanks is a space, and before more breaks it vanishes. -/
def joint (folded : Bool) (lineBreak breaks : List Char) (indentedHere indentedNext : Bool) :
    List Char :=
  if folded && lineBreak == ['\n'] && !indentedHere && !indentedNext then
    if breaks.isEmpty then [' '] else []
  else lineBreak

/-- Reads the lines of text. `breaks` are those before the line at the cursor. The answer has the text
up to the last line, that line's break, and the breaks after it. -/
def blockLines (folded : Bool) (indent : Nat) :
    Nat → List Char → Cursor → (List Char × List Char × List Char) × Cursor
  | 0, breaks, k => (([], [], breaks), k)
  | fuel + 1, breaks, k =>
    let indentedHere := isBlankChar k.peek
    let text := k.run (!isBreak ·)
    let (lineBreak, k) := (k.skip text.length).takeBreak
    let (after, k) := blockBreaks indent (k.rest.length + 1) k
    if k.column = indent ∧ k.peek.isSome then
      let between := joint folded lineBreak after indentedHere (isBlankChar k.peek)
      let ((more, last, bottom), k) := blockLines folded indent fuel after k
      ((breaks ++ text ++ between ++ more, last, bottom), k)
    else ((breaks ++ text, lineBreak, after), k)

/-- What is kept of the line ends at the bottom. -/
def chomp : Chomping → List Char → List Char → List Char
  | .strip, _, _ => []
  | .clip, last, _ => last
  | .keep, last, bottom => last ++ bottom

/-- Reads a block scalar, from its indicator on. `parent` is the indentation around it, none at the
top. -/
def scanBlock (folded : Bool) (parent : Option Nat) (k : Cursor) : Except Fault (List Char × Cursor) := do
  let ((chomping, increment), k) ← scanIndicators k.next
  let k ← scanIgnoredLine k
  let least := max 1 ((parent.map (· + 1)).getD 0)
  let fuel := k.rest.length + 1
  let (breaks, indent, k) := match increment with
    | some n =>
      let (breaks, k) := blockBreaks (least + n - 1) fuel k
      (breaks, least + n - 1, k)
    | none =>
      let (breaks, widest, k) := leadingBreaks fuel 0 k
      (breaks, max least widest, k)
  let ((text, last, bottom), k) :=
    if k.column = indent ∧ k.peek.isSome then blockLines folded indent fuel breaks k
    else (([], [], breaks), k)
  return (text ++ chomp chomping last bottom, k)

end Yaml
end DbImage
