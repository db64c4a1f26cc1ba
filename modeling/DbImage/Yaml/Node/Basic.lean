import DbImage.Yaml.Token.Basic

/-!
The nodes of a document. Aliases make a document a graph, which may even be cyclic, so nodes refer to
one another by number.
-/

namespace DbImage
namespace Yaml

inductive Tag where
  | null
  | bool
  | int
  | float
  | binary
  | timestamp
  | omap
  | pairs
  | set
  | str
  | seq
  | map
  /-- The key `<<`, under which other mappings are merged in. -/
  | merge
  /-- The key `=`, under which a mapping has its text. -/
  | value
  /-- A tag that nothing is known of. -/
  | other
  deriving DecidableEq, Repr

namespace Tag

/-- The tags that have a name, under the common beginning of all of them. -/
def named : List (String × Tag) :=
  [("null", null), ("bool", bool), ("int", int), ("float", float), ("binary", binary),
   ("timestamp", timestamp), ("omap", omap), ("pairs", pairs), ("set", set), ("str", str),
   ("seq", seq), ("map", map), ("merge", merge), ("value", value)]

def common : List Char := "tag:yaml.org,2002:".toList

def ofUri (uri : List Char) : Tag :=
  ((named.find? fun (name, _) => common ++ name.toList == uri).map (·.2)).getD other

end Tag

abbrev NodeId := Nat

inductive Node where
  | scalar (tag : Tag) (text : List CodePoint)
  | sequence (tag : Tag) (items : List NodeId)
  | mapping (tag : Tag) (entries : List (NodeId × NodeId))
  deriving DecidableEq, Repr

namespace Node

def tag : Node → Tag
  | scalar t _ => t
  | sequence t _ => t
  | mapping t _ => t

def withTag (tag : Tag) : Node → Node
  | scalar _ text => scalar tag text
  | sequence _ items => sequence tag items
  | mapping _ entries => mapping tag entries

end Node

abbrev Graph := List Node

namespace Graph

def find (g : Graph) (n : NodeId) : Node := (g[n]?).getD (.scalar .other [])

/-- The entries of a mapping; any other node has none. -/
def entries (g : Graph) (n : NodeId) : List (NodeId × NodeId) :=
  match g.find n with
  | .mapping _ es => es
  | _ => []

def setEntries (g : Graph) (n : NodeId) (es : List (NodeId × NodeId)) : Graph :=
  g.set n (.mapping (g.find n).tag es)

def setTag (g : Graph) (n : NodeId) (t : Tag) : Graph :=
  g.set n ((g.find n).withTag t)

end Graph
end Yaml
end DbImage
