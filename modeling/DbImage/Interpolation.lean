import DbImage.Bindings

/-!
Placeholders in text. A template is read into pieces, from the left and always the first that fits;
which stretches are placeholders depends on the template alone. `expand` then puts the values in, and
looks at no value a second time.
-/

namespace DbImage
namespace Interpolation

inductive Piece where
  /-- A character that stands for itself. -/
  | char (c : Char)
  /-- `$$`, a dollar sign. -/
  | dollar
  /-- `${NAME}`, which must be set. -/
  | value (name : List Char)
  /-- `${NAME:-alt}`, for a name that is unset or empty. -/
  | orElse (name alt : List Char)
  /-- `${NAME:+alt}`, for a name that is set and not empty. -/
  | ifSet (name alt : List Char)
  deriving DecidableEq, Repr

def isNameStart (c : Char) : Bool :=
  c.isAlpha || c == '_'

def isNameRest (c : Char) : Bool :=
  c.isAlphanum || c == '_'

namespace Piece

/-- How the piece is written in a template. -/
def source : Piece → List Char
  | char c => [c]
  | dollar => ['$', '$']
  | value name => '$' :: '{' :: name ++ ['}']
  | orElse name alt => '$' :: '{' :: name ++ ':' :: '-' :: alt ++ ['}']
  | ifSet name alt => '$' :: '{' :: name ++ ':' :: '+' :: alt ++ ['}']

/-- The characters of a template that a piece takes up. -/
def width (p : Piece) : Nat :=
  p.source.length

theorem width_pos (p : Piece) : 0 < p.width := by
  cases p <;> simp [width, source]

/-- The text that takes the piece's place, or the name that it needs and misses. -/
def expand (b : Bindings) : Piece → Except String (List Char)
  | char c => .ok [c]
  | dollar => .ok ['$']
  | value name =>
    match b.get? (String.ofList name) with
    | some v => .ok v.toList
    | none => .error (String.ofList name)
  | orElse name alt =>
    match b.get? (String.ofList name) with
    | some v => .ok (if v.isEmpty then alt else v.toList)
    | none => .ok alt
  | ifSet name alt =>
    match b.get? (String.ofList name) with
    | some v => .ok (if v.isEmpty then [] else alt)
    | none => .ok []

end Piece

/-- Reads what follows `${`: a name, then the end or a modifier with its alternative. -/
def placeholder? (s : List Char) : Option Piece :=
  let name := s.takeWhile isNameRest
  if name.head?.any isNameStart then
    match s.dropWhile isNameRest with
    | '}' :: _ => some (.value name)
    | ':' :: c :: rest =>
      let alt := rest.takeWhile (· ≠ '}')
      if rest.contains '}' then
        if c = '-' then some (.orElse name alt)
        else if c = '+' then some (.ifSet name alt)
        else none
      else none
    | _ => none
  else none

/-- The token at the front of the text, if one starts there. -/
def token? : List Char → Option Piece
  | '$' :: '$' :: _ => some .dollar
  | '$' :: '{' :: rest => placeholder? rest
  | _ => none

/-- Reads the pieces of a template. The first `skip` characters belong to a piece already read. -/
def piecesFrom : Nat → List Char → List Piece
  | _, [] => []
  | skip + 1, _ :: rest => piecesFrom skip rest
  | 0, c :: rest =>
    match token? (c :: rest) with
    | some p => p :: piecesFrom (p.width - 1) rest
    | none => .char c :: piecesFrom 0 rest

/-- The leftmost reading of a template. -/
def pieces (template : List Char) : List Piece :=
  piecesFrom 0 template

/-- Puts the values in. The first name that is needed and not set is the failure. -/
def expandPieces (b : Bindings) : List Piece → Except String (List Char)
  | [] => .ok []
  | p :: rest => do
    let front ← p.expand b
    let back ← expandPieces b rest
    return front ++ back

/-- The template with its placeholders replaced, or the name of the first variable it lacks. -/
def interpolate (template : String) (b : Bindings) : Except String String :=
  (expandPieces b (pieces template.toList)).map String.ofList

@[simp]
theorem pieces_nil : pieces [] = [] := rfl

theorem expandPieces_append (b : Bindings) (ps qs : List Piece) :
    expandPieces b (ps ++ qs) = (do return (← expandPieces b ps) ++ (← expandPieces b qs)) := by
  induction ps with
  | nil => cases h : expandPieces b qs <;> simp [expandPieces, h, bind, Except.bind, pure, Except.pure]
  | cons p rest ih =>
    simp only [List.cons_append, expandPieces, ih]
    cases p.expand b <;> cases expandPieces b rest <;> cases expandPieces b qs <;>
      simp [bind, Except.bind, pure, Except.pure]

theorem piecesFrom_eq_drop (skip : Nat) (s : List Char) :
    piecesFrom skip s = piecesFrom 0 (s.drop skip) := by
  induction skip generalizing s with
  | zero => rfl
  | succ skip ih =>
    cases s with
    | nil => simp [piecesFrom]
    | cons c rest => simp [piecesFrom, ih]

end Interpolation
end DbImage
