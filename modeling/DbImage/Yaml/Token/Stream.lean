import DbImage.Yaml.Token.Plain
import DbImage.Yaml.Token.Property
import DbImage.Yaml.Token.Quoted

/-!
From text to tokens, one token at a time. Indentation opens and closes block collections. Whether a
node is a key shows only when its `:` is met, so the scanner remembers where a key could have begun
and puts the key's token in there afterwards.
-/

namespace DbImage
namespace Yaml

/-- A node that turns out to be a key if a `:` follows on its line. -/
structure PossibleKey where
  /-- The number of tokens before it. -/
  position : Nat
  /-- Here only a key can stand. -/
  required : Bool
  index : Nat
  line : Nat
  column : Nat
  deriving DecidableEq, Repr

structure Scanner where
  cursor : Cursor
  /-- The possible key outside all flow collections, and those inside each open one, innermost first.
  There is one more of them than there are open flow collections. -/
  keys : List (Option PossibleKey)
  /-- The columns of the open block collections, innermost first. -/
  indents : List Nat
  /-- A key may begin here. -/
  keyAllowed : Bool
  tokens : List Token
  deriving Repr

/-- The longest that a key may be, in characters. -/
def keyLimit : Nat := 1024

namespace Scanner

def start (text : List Char) : Scanner :=
  ⟨.start text, [none], [], true, []⟩

def inFlow (s : Scanner) : Bool := 1 < s.keys.length

def emit (s : Scanner) (t : Token) : Scanner := { s with tokens := s.tokens ++ [t] }

def moveTo (s : Scanner) (k : Cursor) : Scanner := { s with cursor := k }

/-- Skips blanks, comments and breaks. After a break outside flow collections a key may begin. -/
def skipBlank : Nat → Scanner → Scanner
  | 0, s => s
  | fuel + 1, s =>
    let k := s.cursor.skipSpaces
    let k := if k.peek = some '#' then k.skipLine else k
    match k.takeBreak with
    | ([], _) => s.moveTo k
    | (_, k) => skipBlank fuel { s.moveTo k with keyAllowed := s.keyAllowed || !s.inFlow }

/-- Skips to the next token. A mark of the byte order in front of the text is no part of it. -/
def skipToToken (s : Scanner) : Scanner :=
  let k := s.cursor
  let k := if k.index = 0 ∧ k.peek = some '\ufeff' then k.next else k
  skipBlank (k.rest.length + 1) (s.moveTo k)

/-- Gives up a possible key, unless one was required. -/
def giveUp : Option PossibleKey → Except Fault (Option PossibleKey)
  | some key => if key.required then .error .malformed else .ok none
  | none => .ok none

/-- A key stays on one line and within the limit. -/
def isStale (k : Cursor) (key : PossibleKey) : Bool :=
  key.line != k.line || keyLimit < k.index - key.index

/-- Gives up the possible keys that are left behind. -/
def dropStale (k : Cursor) : List (Option PossibleKey) → Except Fault (List (Option PossibleKey))
  | [] => .ok []
  | key? :: rest => do
    let key? ← if key?.any (isStale k) then giveUp key? else .ok key?
    return key? :: (← dropStale k rest)

/-- Gives up the possible key at the current level. -/
def removeKey (s : Scanner) : Except Fault Scanner :=
  match s.keys with
  | [] => .ok s
  | key? :: rest => (giveUp key?).map fun key? => { s with keys := key? :: rest }

/-- Remembers that a key may begin at the cursor. -/
def saveKey (s : Scanner) : Except Fault Scanner := do
  if !s.keyAllowed then return s
  let s ← s.removeKey
  let k := s.cursor
  let required := !s.inFlow && s.indents.head? == some k.column
  let key : PossibleKey := ⟨s.tokens.length, required, k.index, k.line, k.column⟩
  return { s with keys := some key :: s.keys.drop 1 }

/-- Closes the block collections that are indented further than `column`; with none, all. Inside a
flow collection indentation means nothing. -/
def closeBlocks (column? : Option Nat) (s : Scanner) : Scanner :=
  if s.inFlow then s
  else
    let open_ := s.indents.dropWhile fun indent => column?.all (· < indent)
    let closed := s.indents.length - open_.length
    { s with indents := open_, tokens := s.tokens ++ List.replicate closed .blockEnd }

def closeBlocksHere (s : Scanner) : Scanner :=
  s.closeBlocks (some s.cursor.column)

/-- A collection begins at `column`, if that is further in than the one around it. -/
def opens (s : Scanner) (column : Nat) : Bool :=
  !s.inFlow && s.indents.head?.all (· < column)

/-- Begins a block collection at `column`, if there is none yet, with its token after the first
`position` tokens. -/
def openBlock (s : Scanner) (column position : Nat) (t : Token) : Scanner :=
  if s.opens column then
    { s with
      indents := column :: s.indents
      tokens := s.tokens.take position ++ t :: s.tokens.drop position }
  else s

def openBlockHere (s : Scanner) (t : Token) : Scanner :=
  s.openBlock s.cursor.column s.tokens.length t

def mark (s : Scanner) (width : Nat) (t : Token) : Scanner :=
  (s.emit t).moveTo (s.cursor.skip width)

def allow (s : Scanner) (allowed : Bool) : Scanner := { s with keyAllowed := allowed }

/-- Outside flow collections an entry, a key or a value may only begin where a key may. -/
def demandAllowed (s : Scanner) : Except Fault Unit :=
  if s.inFlow || s.keyAllowed then .ok () else .error .malformed

def scanFlowStart (s : Scanner) (t : Token) : Except Fault Scanner := do
  let s ← s.saveKey
  return ({ s with keys := none :: s.keys }.allow true).mark 1 t

def scanFlowEnd (s : Scanner) (t : Token) : Except Fault Scanner := do
  if !s.inFlow then .error .malformed
  let s ← s.removeKey
  return ({ s with keys := s.keys.drop 1 }.allow false).mark 1 t

def scanFlowEntry (s : Scanner) : Except Fault Scanner := do
  let s ← (s.allow true).removeKey
  return s.mark 1 .flowEntry

def scanBlockEntry (s : Scanner) : Except Fault Scanner := do
  s.demandAllowed
  let s ← ((s.openBlockHere .blockSequenceStart).allow true).removeKey
  return s.mark 1 .blockEntry

def scanKey (s : Scanner) : Except Fault Scanner := do
  s.demandAllowed
  let s := s.openBlockHere .blockMappingStart
  let s ← (s.allow (!s.inFlow)).removeKey
  return s.mark 1 .key

/-- Puts the token of a key, and of the mapping that it may begin, where the key begins. -/
def insertKey (s : Scanner) (key : PossibleKey) : Scanner :=
  let tokens := s.tokens.take key.position ++ .key :: s.tokens.drop key.position
  { s with tokens }.openBlock key.column key.position .blockMappingStart

def scanValue (s : Scanner) : Except Fault Scanner := do
  match s.keys with
  | some key :: rest =>
    let s := { s with keys := none :: rest }.insertKey key
    return (s.allow false).mark 1 .value
  | _ =>
    s.demandAllowed
    let s := s.openBlockHere .blockMappingStart
    let s ← (s.allow (!s.inFlow)).removeKey
    return s.mark 1 .value

/-- Emits a token that a key can begin with. -/
def scanNodeStart (s : Scanner) (scan : Cursor → Except Fault (Token × Cursor)) :
    Except Fault Scanner := do
  let s ← s.saveKey
  let (t, k) ← scan s.cursor
  return ((s.allow false).emit t).moveTo k

def scanPlainScalar (s : Scanner) : Except Fault Scanner := do
  let s ← s.saveKey
  let least := (s.indents.head?.map (· + 1)).getD 0
  let ((text, ended), k) := scanPlain s.inFlow least s.cursor
  return ((s.allow ended).emit (.scalar (text.map .char) true)).moveTo k

def scanBlockScalar (s : Scanner) (folded : Bool) : Except Fault Scanner := do
  let s ← (s.allow true).removeKey
  let (text, k) ← scanBlock folded s.indents.head? s.cursor
  return (s.emit (.scalar (text.map .char) false)).moveTo k

def scanStreamEnd (s : Scanner) : Except Fault Scanner := do
  let s ← (s.closeBlocks none).removeKey
  return { (s.allow false).emit .streamEnd with keys := [none] }

def scanDirectiveLine (s : Scanner) : Except Fault Scanner := do
  let s ← (s.closeBlocks none).removeKey
  let (t, k) ← scanDirective s.cursor
  return ((s.allow false).emit t).moveTo k

def scanMarker (s : Scanner) (t : Token) : Except Fault Scanner := do
  let s ← (s.closeBlocks none).removeKey
  return (s.allow false).mark 3 t

/-- A plain scalar can begin with `c`, when `next` follows. -/
def startsPlain (inFlow : Bool) (c : Char) (next : Option Char) : Bool :=
  if "-?:,[]{}#&*!|>'\"%@`".toList.contains c then
    !endsWord next && (c == '-' || (!inFlow && (c == '?' || c == ':')))
  else !endsWord (some c)

def scanToken (s : Scanner) : Except Fault Scanner :=
  let k := s.cursor
  match k.peek with
  | none => s.scanStreamEnd
  | some c =>
    let next := k.peekAt 1
    let spaced := endsWord next
    if c = '%' ∧ k.column = 0 then s.scanDirectiveLine
    else if k.column = 0 ∧ k.atMarker then
      s.scanMarker (if c = '-' then .documentStart else .documentEnd)
    else if c = '[' then s.scanFlowStart .flowSequenceStart
    else if c = '{' then s.scanFlowStart .flowMappingStart
    else if c = ']' then s.scanFlowEnd .flowSequenceEnd
    else if c = '}' then s.scanFlowEnd .flowMappingEnd
    else if c = ',' then s.scanFlowEntry
    else if c = '-' ∧ spaced then s.scanBlockEntry
    else if c = '?' ∧ (s.inFlow ∨ spaced) then s.scanKey
    else if c = ':' ∧ (s.inFlow ∨ spaced) then s.scanValue
    else if c = '*' then s.scanNodeStart fun k => (scanName k).map fun (n, k) => (.alias n, k)
    else if c = '&' then s.scanNodeStart fun k => (scanName k).map fun (n, k) => (.anchor n, k)
    else if c = '!' then s.scanNodeStart scanTag
    else if c = '|' ∧ !s.inFlow then s.scanBlockScalar false
    else if c = '>' ∧ !s.inFlow then s.scanBlockScalar true
    else if c = '\'' ∨ c = '"' then
      s.scanNodeStart fun k => (scanQuoted (c == '"') k).map fun (t, k) => (.scalar t false, k)
    else if startsPlain s.inFlow c next then s.scanPlainScalar
    else .error .malformed

def step (s : Scanner) : Except Fault Scanner := do
  let s := s.skipToToken
  let keys ← dropStale s.cursor s.keys
  (closeBlocksHere { s with keys }).scanToken

/-- The tokens that are certain. Where a node may yet turn out to be a key, it is not known what comes
next. -/
def settled (s : Scanner) : List Token :=
  let live := (s.keys.filterMap id).filter (!isStale s.cursor ·)
  s.tokens.take (live.foldl (fun n key => min n key.position) s.tokens.length)

end Scanner

/-- The tokens of a text as far as they can be read, and what stops the reading short of the end. -/
structure TokenStream where
  tokens : List Token
  fault? : Option Fault
  deriving DecidableEq, Repr

namespace TokenStream

def scanFrom : Nat → Scanner → TokenStream
  | 0, s => ⟨s.settled, some .malformed⟩
  | fuel + 1, s =>
    match s.step with
    | .error fault => ⟨s.settled, some fault⟩
    | .ok s =>
      if s.tokens.getLast? = some .streamEnd then ⟨s.tokens, none⟩ else scanFrom fuel s

/-- The tokens of a text. Each takes up a character at least, but for the last. -/
def ofText (text : List Char) : TokenStream :=
  scanFrom (text.length + 2) (.start text)

end TokenStream
end Yaml
end DbImage
