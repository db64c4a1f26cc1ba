import DbImage.Yaml.Node.Basic
import DbImage.Yaml.Scalar.Form
import DbImage.Yaml.Token.Stream

/-!
From tokens to the nodes of the one document that a text holds. Each rule of the grammar looks at the
next token and at nothing behind it, so a fault further on comes to light only when it is reached.
-/

namespace DbImage
namespace Yaml

structure Reader where
  tokens : List Token
  /-- What is wrong where the tokens end. -/
  fault : Fault
  /-- What the handles of tags stand for. -/
  handles : List (List Char × List Char)
  anchors : List (List Char × NodeId)
  graph : Graph
  deriving Repr

abbrev Reading := StateT Reader (Except Fault)

inductive Context where
  | flow
  | block
  /-- A block, or entries of a sequence that are not indented. -/
  | blockOrEntries
  deriving DecidableEq, Repr

structure Properties where
  anchor? : Option (List Char)
  tag? : Option (List Char)
  deriving DecidableEq, Repr

namespace Reading

def peek : Reading Token := do
  let r ← get
  match r.tokens with
  | t :: _ => return t
  | [] => throw r.fault

def drop : Reading Unit :=
  modify fun r => { r with tokens := r.tokens.tail }

def accept (t : Token) : Reading Bool := do
  if (← peek) = t then
    drop
    return true
  else return false

def demand (t : Token) : Reading Unit := do
  if !(← accept t) then throw .malformed

/-- Adds a node to the graph, and makes it known under its anchor. An anchor can be given once. -/
def allocate (anchor? : Option (List Char)) (n : Node) : Reading NodeId := do
  let r ← get
  let id := r.graph.length
  match anchor? with
  | none => set { r with graph := r.graph ++ [n] }
  | some name =>
    if (r.anchors.find? (·.1 == name)).isSome then throw .malformed
    set { r with graph := r.graph ++ [n], anchors := (name, id) :: r.anchors }
  return id

def fill (id : NodeId) (n : Node) : Reading Unit :=
  modify fun r => { r with graph := r.graph.set id n }

def empty : Reading NodeId := allocate none (.scalar (Form.tagOf []) [])

def anchored (name : List Char) : Reading NodeId := do
  match (← get).anchors.find? (·.1 == name) with
  | some (_, id) => return id
  | none => throw .malformed

/-- The tag in full: what the handle stands for, and the suffix. -/
def resolveTag : Option (List Char) → List Char → Reading (List Char)
  | none, suffix => return suffix
  | some handle, suffix => do
    match (← get).handles.find? (·.1 == handle) with
    | some (_, uri) => return uri ++ suffix
    | none => throw .malformed

def takeAnchor : Reading (Option (List Char)) := do
  match ← peek with
  | .anchor name =>
    drop
    return some name
  | _ => return none

def takeTag : Reading (Option (Option (List Char) × List Char)) := do
  match ← peek with
  | .tag handle? suffix =>
    drop
    return some (handle?, suffix)
  | _ => return none

/-- An anchor and a tag, in either order. -/
def properties : Reading Properties := do
  let first? ← takeAnchor
  let tag? ← takeTag
  let anchor? ← if first?.isNone && tag?.isSome then takeAnchor else pure first?
  let tag? ← match tag? with
    | some (handle?, suffix) => do pure (some (← resolveTag handle? suffix))
    | none => pure none
  return ⟨anchor?, tag?⟩

/-- The mark that leaves the tag to the node's form. -/
def isOpen (tag? : Option (List Char)) : Bool :=
  tag?.all (· == ['!'])

def collectionTag (tag? : Option (List Char)) (default : Tag) : Tag :=
  if isOpen tag? then default else Tag.ofUri (tag?.getD [])

/-- The tag that a scalar has by its form. Only characters have a form. -/
def formTag (text : List CodePoint) : Tag :=
  ((CodePoint.chars? text).map Form.tagOf).getD .str

/-- The tag of a scalar. Without one a quoted scalar is text; with a lone `!` it is read as if it had
no quotes. -/
def scalarTag (tag? : Option (List Char)) (text : List CodePoint) (plain : Bool) : Tag :=
  match tag? with
  | none => if plain then formTag text else .str
  | some ['!'] => formTag text
  | some uri => Tag.ofUri uri

/-- Reads the items of a sequence whose node is known before they are. -/
def sequence (p : Properties) (items : Reading (List NodeId)) : Reading NodeId := do
  let tag := collectionTag p.tag? .seq
  let id ← allocate p.anchor? (.sequence tag [])
  fill id (.sequence tag (← items))
  return id

/-- Reads the entries of a mapping whose node is known before they are. -/
def mapping (p : Properties) (entries : Reading (List (NodeId × NodeId))) : Reading NodeId := do
  let tag := collectionTag p.tag? .map
  let id ← allocate p.anchor? (.mapping tag [])
  fill id (.mapping tag (← entries))
  return id

/-- An empty scalar where one of these tokens stands, and a node otherwise. -/
def nodeUnless (stops : List Token) (node : Reading NodeId) : Reading NodeId := do
  if stops.contains (← peek) then empty else node

/-- What follows the mark of a value, if the mark is there, and an empty scalar otherwise. -/
def valueUnless (stops : List Token) (node : Reading NodeId) : Reading NodeId := do
  if ← accept .value then nodeUnless stops node else empty

mutual

def node : Nat → Context → Reading NodeId
  | 0, _ => throw .malformed
  | fuel + 1, context => do
    match ← peek with
    | .alias name =>
      drop
      anchored name
    | _ =>
      let p ← properties
      let t ← peek
      match t, context with
      | .blockEntry, .blockOrEntries => sequence p (looseItems fuel)
      | .scalar text plain, _ =>
        drop
        allocate p.anchor? (.scalar (scalarTag p.tag? text plain) text)
      | .flowSequenceStart, _ =>
        drop
        sequence p (flowItems fuel true)
      | .flowMappingStart, _ =>
        drop
        mapping p (flowEntries fuel true)
      | .blockSequenceStart, .block | .blockSequenceStart, .blockOrEntries =>
        drop
        sequence p (blockItems fuel)
      | .blockMappingStart, .block | .blockMappingStart, .blockOrEntries =>
        drop
        mapping p (blockEntries fuel)
      | _, _ =>
        -- a node may be left out where it has properties
        if p.anchor?.isNone && p.tag?.isNone then throw .malformed
        allocate p.anchor? (.scalar (scalarTag p.tag? [] true) [])

/-- The items of an indented sequence, to its end. -/
def blockItems : Nat → Reading (List NodeId)
  | 0 => throw .malformed
  | fuel + 1 => do
    if ← accept .blockEntry then
      let item ← nodeUnless [.blockEntry, .blockEnd] (node fuel .block)
      return item :: (← blockItems fuel)
    else
      demand .blockEnd
      return []

/-- The items of a sequence that is not indented, as long as there are any. -/
def looseItems : Nat → Reading (List NodeId)
  | 0 => throw .malformed
  | fuel + 1 => do
    if ← accept .blockEntry then
      let item ← nodeUnless [.blockEntry, .key, .value, .blockEnd] (node fuel .block)
      return item :: (← looseItems fuel)
    else return []

def blockEntries : Nat → Reading (List (NodeId × NodeId))
  | 0 => throw .malformed
  | fuel + 1 => do
    if ← accept .key then
      let key ← nodeUnless [.key, .value, .blockEnd] (node fuel .blockOrEntries)
      let value ← valueUnless [.key, .value, .blockEnd] (node fuel .blockOrEntries)
      return (key, value) :: (← blockEntries fuel)
    else
      demand .blockEnd
      return []

/-- The items of a flow sequence, to its end. An entry with a key is a mapping of its own. -/
def flowItems : Nat → Bool → Reading (List NodeId)
  | 0, _ => throw .malformed
  | fuel + 1, first => do
    if ← accept .flowSequenceEnd then return []
    if !first then demand .flowEntry
    match ← peek with
    | .key =>
      let item ← mapping ⟨none, none⟩ do
        drop
        let key ← nodeUnless [.value, .flowEntry, .flowSequenceEnd] (node fuel .flow)
        let value ← valueUnless [.flowEntry, .flowSequenceEnd] (node fuel .flow)
        return [(key, value)]
      return item :: (← flowItems fuel false)
    | .flowSequenceEnd =>
      drop
      return []
    | _ =>
      let item ← node fuel .flow
      return item :: (← flowItems fuel false)

def flowEntries : Nat → Bool → Reading (List (NodeId × NodeId))
  | 0, _ => throw .malformed
  | fuel + 1, first => do
    if ← accept .flowMappingEnd then return []
    if !first then demand .flowEntry
    match ← peek with
    | .key =>
      drop
      let key ← nodeUnless [.value, .flowEntry, .flowMappingEnd] (node fuel .flow)
      let value ← valueUnless [.flowEntry, .flowMappingEnd] (node fuel .flow)
      return (key, value) :: (← flowEntries fuel false)
    | .flowMappingEnd =>
      drop
      return []
    | _ =>
      let key ← node fuel .flow
      let value ← empty
      return (key, value) :: (← flowEntries fuel false)

end

def standardHandles : List (List Char × List Char) :=
  [(['!'], ['!']), (['!', '!'], Tag.common)]

/-- Takes in the directives before a document. Each can be given once. -/
def directives : Nat → Bool → List (List Char × List Char) → Reading Unit
  | 0, _, _ => throw .malformed
  | fuel + 1, versioned, given => do
    match ← peek with
    | .directive d =>
      drop
      match d with
      | .version major _ =>
        if versioned || major ≠ 1 then throw .malformed
        directives fuel true given
      | .tag handle uri =>
        if (given.find? (·.1 == handle)).isSome then throw .malformed
        directives fuel versioned (given ++ [(handle, uri)])
      | .other => directives fuel versioned given
    | _ => modify fun r => { r with handles := given ++ standardHandles }

def documentEnds : Nat → Reading Unit
  | 0 => throw .malformed
  | fuel + 1 => do
    if ← accept .documentEnd then documentEnds fuel

/-- Reads the one document, if there is one. -/
def document (fuel : Nat) : Reading (Option NodeId) := do
  let root ← match ← peek with
    | .streamEnd => return none
    | .directive _ | .documentStart => do
      directives fuel false []
      demand .documentStart
      match ← peek with
      | .directive _ | .documentStart | .documentEnd | .streamEnd => empty
      | _ => node fuel .block
    | _ => node fuel .block
  documentEnds fuel
  demand .streamEnd
  return some root

end Reading

/-- The nodes of a text and the number of the one that holds all others. A text without a document has
none. -/
def Graph.ofTokens (ts : TokenStream) : Except Fault (Graph × Option NodeId) := do
  let start : Reader := ⟨ts.tokens, ts.fault?.getD .malformed, Reading.standardHandles, [], []⟩
  let (root?, r) ← (Reading.document (2 * ts.tokens.length + 2)).run start
  return (r.graph, root?)

end Yaml
end DbImage
