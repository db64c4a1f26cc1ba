import DbImage.Instances
import DbImage.Yaml.Node.Reading
import DbImage.Yaml.Scalar.Value

/-!
From nodes to values. Scalars get their values at once, collections are opened and filled in the order
in which they are met, level by level, so of several faults the first in that order counts. A mapping
is filled once the mappings under its merge keys have been merged in.
-/

namespace DbImage
namespace Yaml

namespace Tag

/-- The values under this tag have parts. -/
def isCollection : Tag → Bool
  | omap | pairs | set | seq | map => true
  | _ => false

end Tag

namespace Graph

/-! ## Merging -/

/-- The number of merge keys in all mappings. Merging can go no deeper. -/
def mergeCount (g : Graph) : Nat :=
  (g.map fun
    | .mapping _ es => (es.filter fun (k, _) => (g.find k).tag == .merge).length
    | _ => 0).sum

/-- The mappings that are merged in where `n` stands under a merge key. -/
def mergeSources (g : Graph) (n : NodeId) : Except Fault (List NodeId) :=
  match g.find n with
  | .mapping _ _ => .ok [n]
  | .sequence _ items => .ok items
  | .scalar _ _ => .error .malformed

/-- The entries of the sources, those of an earlier source after those of a later one. -/
def mergedEntries (nested : NodeId → Graph → Except Fault Graph) :
    List NodeId → Graph → Except Fault (List (NodeId × NodeId) × Graph)
  | [], g => .ok ([], g)
  | n :: rest, g =>
    match g.find n with
    | .mapping _ _ => do
      let g ← nested n g
      let here := g.entries n
      let (others, g) ← mergedEntries nested rest g
      return (others ++ here, g)
    | _ => .error .malformed

/-- Goes through the entries of `n`. What is merged in comes before the mapping's own entries, so that
these count. If merging comes back to `n` itself, the rest of its entries has been dealt with there. -/
def flattenEntries (nested : NodeId → Graph → Except Fault Graph) (n : NodeId) :
    List (NodeId × NodeId) → List (NodeId × NodeId) → List (NodeId × NodeId) → Graph →
    Except Fault Graph
  | [], kept, merged, g => .ok (g.setEntries n (merged ++ kept))
  | (k, v) :: rest, kept, merged, g =>
    match (g.find k).tag with
    | .merge => do
      let g := g.setEntries n (kept ++ rest)
      let (added, g) ← mergedEntries nested (← g.mergeSources v) g
      if g.entries n = kept ++ rest then flattenEntries nested n rest kept (merged ++ added) g
      else return g.setEntries n (merged ++ added ++ g.entries n)
    | .value => flattenEntries nested n rest (kept ++ [(k, v)]) merged (g.setTag k .str)
    | _ => flattenEntries nested n rest (kept ++ [(k, v)]) merged g

/-- Merges into a mapping what stands under its merge keys. -/
def flattenWithin : Nat → NodeId → Graph → Except Fault Graph
  | 0, _, g => .ok g
  | depth + 1, n, g => flattenEntries (flattenWithin depth) n (g.entries n) [] [] g

def flatten (g : Graph) (n : NodeId) : Except Fault Graph :=
  flattenWithin (g.mergeCount + 1) n g

/-! ## Scalars -/

/-- The text of a node. A mapping has the text of its value key. -/
def textWithin (g : Graph) : Nat → NodeId → Except Fault (List CodePoint)
  | 0, _ => .error .malformed
  | depth + 1, n =>
    match g.find n with
    | .scalar _ text => .ok text
    | .sequence _ _ => .error .malformed
    | .mapping _ es =>
      match es.find? fun (k, _) => (g.find k).tag == .value with
      | some (_, v) => textWithin g depth v
      | none => .error .malformed

/-- The value of a node whose tag is for values without parts. -/
def scalar (g : Graph) (n : NodeId) : Except Fault (Scalar LooseText) := do
  let tag := (g.find n).tag
  if tag = .merge ∨ tag = .value ∨ tag = .other then .error .malformed
  let text ← g.textWithin (g.length + 1) n
  match tag, g.find n with
  | .timestamp, .mapping _ _ => .error .wrongShape
  | tag, _ => Value.ofText tag text

end Graph

/-! ## Filling -/

structure Construction where
  graph : Graph
  scalars : List (NodeId × Scalar LooseText)
  opened : List NodeId
  /-- The collections that are still to be filled. -/
  waiting : List NodeId

namespace Construction

def ofGraph (g : Graph) : Construction := ⟨g, [], [], []⟩

def scalar? (c : Construction) (n : NodeId) : Option (Scalar LooseText) :=
  (c.scalars.find? (·.1 == n)).map (·.2)

/-- Meets a node: a scalar gets its value, a collection waits to be filled. -/
def visit (c : Construction) (n : NodeId) : Except Fault Construction :=
  if (c.scalar? n).isSome || c.opened.contains n then .ok c
  else if (c.graph.find n).tag.isCollection then
    .ok { c with opened := n :: c.opened, waiting := c.waiting ++ [n] }
  else (c.graph.scalar n).map fun s => { c with scalars := (n, s) :: c.scalars }

def visitAll (c : Construction) : List NodeId → Except Fault Construction
  | [] => .ok c
  | n :: rest =>
    match c.visit n with
    | .ok c => visitAll c rest
    | .error fault => .error fault

/-- Meets the key and the value of each entry. A collection cannot be a key. -/
def visitEntries (c : Construction) : List (NodeId × NodeId) → Except Fault Construction
  | [] => .ok c
  | (k, v) :: rest => do
    let c ← c.visit k
    if (c.scalar? k).isNone then .error .malformed
    visitEntries (← c.visit v) rest

/-- Meets the one key and value of each mapping in a list of entries. -/
def visitPairs (c : Construction) : List NodeId → Except Fault Construction
  | [] => .ok c
  | n :: rest =>
    match c.graph.find n with
    | .mapping _ [(k, v)] => do visitPairs (← c.visitAll [k, v]) rest
    | _ => .error .malformed

/-- Fills a collection. Its tag says what it is to be, and its node must have that shape. -/
def fill (c : Construction) (n : NodeId) : Except Fault Construction :=
  match (c.graph.find n).tag, c.graph.find n with
  | .seq, .sequence _ items => c.visitAll items
  | .omap, .sequence _ items => c.visitPairs items
  | .pairs, .sequence _ items => c.visitPairs items
  | .map, .mapping _ _ => fillMapping c n
  | .set, .mapping _ _ => fillMapping c n
  | _, _ => .error .malformed
where
  fillMapping (c : Construction) (n : NodeId) : Except Fault Construction := do
    let g ← c.graph.flatten n
    { c with graph := g }.visitEntries (g.entries n)

/-- Fills what waits, first come, first served. -/
def fillAll : Nat → Construction → Except Fault Construction
  | 0, c => .ok c
  | fuel + 1, c =>
    match c.waiting with
    | [] => .ok c
    | n :: rest =>
      match { c with waiting := rest }.fill n with
      | .ok c => fillAll fuel c
      | .error fault => .error fault

/-! ## Reading off -/

/-- Adds an entry. A key that is there already keeps its place and its form and takes the new
value. -/
def putEntry (key : Scalar LooseText) (value : Datum LooseText) :
    Entries LooseText → Entries LooseText
  | [] => [(key, value)]
  | (k, v) :: rest =>
    if k.sameKey key then (k, value) :: rest else (k, v) :: putEntry key value rest

def addKey (keys : List (Scalar LooseText)) (key : Scalar LooseText) : List (Scalar LooseText) :=
  if keys.any (·.sameKey key) then keys else keys ++ [key]

/-- The value of a node, with collections down to a depth. Deeper ones are left empty, since a value
that contains itself has no bottom. -/
def datum (c : Construction) : Nat → NodeId → Datum LooseText
  | depth, n =>
    match c.scalar? n with
    | some s => .scalar s
    | none =>
      match depth, (c.graph.find n).tag, c.graph.find n with
      | 0, .map, _ => .map []
      | 0, .set, _ => .set []
      | 0, _, _ => .list []
      | depth + 1, .map, .mapping _ es =>
        .map (es.foldl (fun entries (k, v) =>
          putEntry ((c.scalar? k).getD .null) (datum c depth v) entries) [])
      | _ + 1, .set, .mapping _ es =>
        .set (es.foldl (fun keys (k, _) => addKey keys ((c.scalar? k).getD .null)) [])
      | depth + 1, .seq, .sequence _ items => .list (items.map (datum c depth))
      | depth + 1, _, .sequence _ items =>
        .list (items.map fun m =>
          match c.graph.find m with
          | .mapping _ [(k, v)] => .pair (datum c depth k) (datum c depth v)
          | _ => .null)
      | _ + 1, _, _ => .null

def build (g : Graph) (root : NodeId) (depth : Nat) : Except Fault (Datum LooseText) := do
  let c ← (ofGraph g).visit root
  let c ← fillAll (g.length + 1) c
  return c.datum depth root

end Construction
end Yaml
end DbImage
