import DbImage.Bindings
import DbImage.Text.CharSet

/-!
Env files: one `NAME=value` to a statement, values plain or quoted, `#` for comments. Reading gives
the statements; `resolve` then puts earlier values into later ones. A statement that cannot be read
costs its line and nothing else.
-/

namespace DbImage
namespace EnvFile

inductive Statement where
  /-- A name, with its value if an equals sign gives it one. -/
  | assignment (name : List Char) (value? : Option (List Char))
  /-- A blank or a comment. -/
  | nothing
  /-- A statement, from this line on, that breaks the rules. -/
  | unreadable (line : Nat)
  deriving DecidableEq, Repr

def isInlineBlank (c : Char) : Bool :=
  Text.isBlank c && c != '\n' && c != '\r'

def isLineEnd (c : Char) : Bool :=
  c == '\n' || c == '\r'

def skipBlanks (s : List Char) : List Char :=
  s.dropWhile isInlineBlank

/-- Drops `export` and the blanks after it. A name that only starts so is left alone. -/
def skipExport (s : List Char) : List Char :=
  match s with
  | 'e' :: 'x' :: 'p' :: 'o' :: 'r' :: 't' :: c :: rest =>
    if isInlineBlank c then skipBlanks rest else s
  | _ => s

/-- Reads a name, quoted or plain. A comment has none. -/
def name? (s : List Char) : Option (Option (List Char) × List Char) :=
  match s with
  | '#' :: _ => some (none, s)
  | '\'' :: rest =>
    match rest.takeWhile (· ≠ '\''), rest.dropWhile (· ≠ '\'') with
    | c :: name, _ :: after => some (some (c :: name), after)
    | _, _ => none
  | _ =>
    let plain := fun c => c != '=' && c != '#' && !Text.isBlank c
    match s.takeWhile plain with
    | [] => none
    | name => some (some name, s.dropWhile plain)

/-- Splits at the first quote that no backslash precedes; `before` is the character passed last. -/
def splitUnescaped? (quote before : Char) : List Char → Option (List Char × List Char)
  | [] => none
  | c :: rest =>
    if c = quote ∧ before ≠ '\\' then some ([], rest)
    else (splitUnescaped? quote c rest).map fun (inside, after) => (c :: inside, after)

def splitLast? (quote : Char) : List Char → Option (List Char × List Char)
  | [] => none
  | c :: rest =>
    match splitLast? quote rest with
    | some (inside, after) => some (c :: inside, after)
    | none => if c = quote then some ([], rest) else none

/-- The inside of a quoted value and what follows. If every quote has a backslash before it, the last
one ends the value all the same. -/
def closeQuote? (quote : Char) (s : List Char) : Option (List Char × List Char) :=
  (splitUnescaped? quote quote s).or (splitLast? quote s)

def escape? (c : Char) : Option Char :=
  match c with
  | '\\' => some '\\'
  | '\'' => some '\''
  | '"' => some '"'
  | 'a' => some '\u0007'
  | 'b' => some '\u0008'
  | 'f' => some '\u000c'
  | 'n' => some '\n'
  | 'r' => some '\r'
  | 't' => some '\t'
  | 'v' => some '\u000b'
  | _ => none

/-- Between single quotes only the backslash and the quote are escaped. -/
def singleEscape? (c : Char) : Option Char :=
  if c = '\\' ∨ c = '\'' then some c else none

/-- Resolves the escapes; a backslash before anything else stands for itself. -/
def unescape (meaning? : Char → Option Char) : List Char → List Char
  | [] => []
  | [c] => [c]
  | c :: d :: rest =>
    if c = '\\' then
      match meaning? d with
      | some e => e :: unescape meaning? rest
      | none => c :: unescape meaning? (d :: rest)
    else c :: unescape meaning? (d :: rest)

/-- Cuts a comment off: a `#` after a blank, with all blanks before it. -/
def cutComment : List Char → List Char
  | [] => []
  | c :: rest =>
    if Text.isBlank c && (rest.dropWhile Text.isBlank).head? == some '#' then []
    else c :: cutComment rest

/-- A value without quotes reaches to the end of the line or to a comment. The blanks after the
equals sign, in `s`, are part of what a comment may follow. -/
def plainValue (s : List Char) : List Char :=
  Text.trim Text.isBlank (cutComment s)

/-- Reads what follows the equals sign. -/
def value? (s : List Char) : Option (List Char × List Char) :=
  match skipBlanks s with
  | '\'' :: rest =>
    (closeQuote? '\'' rest).map fun (inside, after) => (unescape singleEscape? inside, after)
  | '"' :: rest =>
    (closeQuote? '"' rest).map fun (inside, after) => (unescape escape? inside, after)
  | _ => some (plainValue (s.takeWhile (!isLineEnd ·)), s.dropWhile (!isLineEnd ·))

/-- After a statement only blanks and a comment may stand before the line ends. -/
def finishLine? (s : List Char) : Option (List Char) :=
  let s := skipBlanks s
  let s := if s.head? = some '#' then s.dropWhile (!isLineEnd ·) else s
  match s with
  | [] => some []
  | c :: rest => if isLineEnd c then some rest else none

/-- Reads one statement; blank lines before it count as its beginning. The failure is the place where
the rules are broken. -/
def statement (s : List Char) : Except (List Char) (Statement × List Char) := do
  let s := s.dropWhile Text.isBlank
  if s.isEmpty then return (.nothing, [])
  let s := skipExport s
  let (name?, s) ← orStop s (name? s)
  let s := skipBlanks s
  let (value?, s) ← match s with
    | '=' :: rest => (orStop (skipBlanks rest) (value? rest)).map fun (v, after) => (some v, after)
    | _ => pure (none, s)
  let rest ← orStop s (finishLine? s)
  match name? with
  | some name => return (.assignment name value?, rest)
  | none => return (.nothing, rest)
where
  orStop {α : Type} (place : List Char) : Option α → Except (List Char) α
    | some a => .ok a
    | none => .error place

def skipLine (s : List Char) : List Char :=
  (s.dropWhile (!isLineEnd ·)).drop 1

/-- Reads the statements from line `line` on, at most `fuel` of them. -/
def statementsFrom : Nat → Nat → List Char → List Statement
  | 0, _, _ => []
  | fuel + 1, line, s =>
    if s.isEmpty then []
    else
      let (found, rest) := match statement s with
        | .ok (found, rest) => (found, rest)
        | .error place => (.unreadable line, skipLine place)
      let passed := (s.take (s.length - rest.length)).count '\n'
      found :: statementsFrom fuel (line + passed) rest

/-- The statements of a file. Each takes up at least one character, so there are no more of them than
characters. A mark of the byte order in front is no part of the first name. -/
def statements (text : List Char) : List Statement :=
  let s := match text with
    | '\ufeff' :: rest => rest
    | s => s
  statementsFrom s.length 1 s

/-- The names a file gives, with the values it gives them, in order. -/
def assignments (ss : List Statement) : List (List Char × Option (List Char)) :=
  ss.filterMap fun
    | .assignment name value? => some (name, value?)
    | _ => none

/-- The lines of the statements that break the rules. -/
def badLines (ss : List Statement) : List Nat :=
  ss.filterMap fun
    | .unreadable line => some line
    | _ => none

/-- Reads what follows `${` in a value: a name and perhaps a default. The name may be anything
without a colon or a brace. -/
def reference? (s : List Char) : Option (List Char × List Char × Nat) :=
  let inName := fun c => c != '}' && c != ':'
  let name := s.takeWhile inName
  match s.dropWhile inName with
  | '}' :: _ => some (name, [], name.length + 3)
  | ':' :: '-' :: rest =>
    let default := rest.takeWhile (· ≠ '}')
    if rest.contains '}' then some (name, default, name.length + default.length + 5) else none
  | _ => none

/-- Puts values into a value. A name without one gives its default, or nothing. The first `skip`
characters belong to a reference already replaced. -/
def fill (valueOf? : String → Option String) : Nat → List Char → List Char
  | _, [] => []
  | skip + 1, _ :: rest => fill valueOf? skip rest
  | 0, c :: rest =>
    match c, rest with
    | '$', '{' :: inside =>
      match reference? inside with
      | some (name, default, width) =>
        ((valueOf? (String.ofList name)).map String.toList).getD default
          ++ fill valueOf? (width - 1) rest
      | none => c :: fill valueOf? 0 rest
    | _, _ => c :: fill valueOf? 0 rest

/-- The last binding of a name, where a name may be bound to no value. -/
def lookup? (bound : List (String × Option String)) (name : String) : Option (Option String) :=
  (bound.reverse.find? (·.1 == name)).map (·.2)

/-- Resolves the assignments in order. A value sees the environment and, in front of it, the names
already bound, of which one without a value counts as empty. -/
def resolve (environment : Bindings) (bound : List (String × Option String)) :
    List (List Char × Option (List Char)) → List (String × Option String)
  | [] => bound
  | (name, value?) :: rest =>
    let valueOf? := fun n =>
      match lookup? bound n with
      | some value? => some (value?.getD "")
      | none => environment.get? n
    let value? := value?.map fun v => String.ofList (fill valueOf? 0 v)
    resolve environment (bound ++ [(String.ofList name, value?)]) rest

/-- The variables that a file binds: of each name the last binding, unless that has no value. -/
def bindings (environment : Bindings) (ss : List Statement) : Bindings :=
  let bound := resolve environment [] (assignments ss)
  let names := bound.foldl (fun ns (n, _) => if n ∈ ns then ns else ns ++ [n]) []
  names.filterMap fun n => ((lookup? bound n).bind id).map fun v => (n, v)

end EnvFile
end DbImage
