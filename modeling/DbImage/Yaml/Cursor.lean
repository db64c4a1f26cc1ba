import DbImage.Text.Loose

/-!
A place in a YAML text: what is left of the text, and the line and column that it starts at. Moving
on never looks back, so what a scan does depends on what is left alone.
-/

namespace DbImage
namespace Yaml

inductive Fault where
  /-- The text breaks a rule of the format. -/
  | malformed
  /-- A scalar has no value of its type. -/
  | badValue
  /-- A number does not fit. -/
  | tooLarge
  /-- A truth value is given by a word that stands for none. -/
  | unknownWord (word : LooseText)
  /-- A text that is to be a date has another form. -/
  | noMatch
  /-- A mapping stands where the text of a date is wanted. -/
  | wrongShape
  /-- A number without any text. -/
  | emptyNumber
  deriving DecidableEq, Repr

def isBreak (c : Char) : Bool :=
  c == '\n' || c == '\r' || c == '\u0085' || c == '\u2028' || c == '\u2029'

/-- No more text on this line. -/
def endsLine : Option Char → Bool
  | none => true
  | some c => isBreak c

def endsPart : Option Char → Bool
  | none => true
  | some c => c == ' ' || isBreak c

def endsWord : Option Char → Bool
  | none => true
  | some c => c == ' ' || c == '\t' || isBreak c

structure Cursor where
  rest : List Char
  index : Nat
  line : Nat
  column : Nat
  deriving DecidableEq, Repr

namespace Cursor

def start (text : List Char) : Cursor := ⟨text, 0, 0, 0⟩

/-- The character at the cursor, none at the end of the text. -/
def peek (k : Cursor) : Option Char := k.rest.head?

def peekAt (k : Cursor) (n : Nat) : Option Char := k.rest[n]?

/-- One character on. A line ends with its break, and `\r\n` is one break. A mark of the byte order
has no width. -/
def next (k : Cursor) : Cursor :=
  match k.rest with
  | [] => k
  | c :: rest =>
    if isBreak c && !(c == '\r' && rest.head? == some '\n') then ⟨rest, k.index + 1, k.line + 1, 0⟩
    else ⟨rest, k.index + 1, k.line, if c = '\ufeff' then k.column else k.column + 1⟩

def skip : Nat → Cursor → Cursor
  | 0, k => k
  | n + 1, k => skip n k.next

/-- The characters up to the first that `p` refuses. -/
def run (k : Cursor) (p : Char → Bool) : List Char := k.rest.takeWhile p

def skipWhile (p : Char → Bool) (k : Cursor) : Cursor := skip (k.run p).length k

/-- The break at the cursor, if there is one, as the text it stands for, and the place after it. -/
def takeBreak (k : Cursor) : List Char × Cursor :=
  match k.rest with
  | '\r' :: '\n' :: _ => (['\n'], k.skip 2)
  | c :: _ =>
    if c = '\u2028' ∨ c = '\u2029' then ([c], k.next)
    else if isBreak c then (['\n'], k.next)
    else ([], k)
  | [] => ([], k)

/-- At `---` or `...`, followed by the end of a word. -/
def atMarker (k : Cursor) : Bool :=
  match k.rest with
  | a :: b :: c :: rest => a == b && b == c && (a == '-' || a == '.') && endsWord rest.head?
  | _ => false

def skipSpaces (k : Cursor) : Cursor := k.skipWhile (· == ' ')

def skipLine (k : Cursor) : Cursor := k.skipWhile (!isBreak ·)

theorem rest_next (k : Cursor) : k.next.rest = k.rest.tail := by
  unfold next
  split
  · rename_i h; simp [h]
  · rename_i h; split <;> simp [h]

theorem rest_skip (n : Nat) (k : Cursor) : (k.skip n).rest = k.rest.drop n := by
  induction n generalizing k with
  | zero => rfl
  | succ n ih => simp [skip, ih, rest_next]

theorem drop_length_takeWhile (p : Char → Bool) (l : List Char) :
    l.drop (l.takeWhile p).length = l.dropWhile p := by
  induction l with
  | nil => rfl
  | cons c rest ih => by_cases h : p c <;> simp [h, ih]

end Cursor

end Yaml
end DbImage
