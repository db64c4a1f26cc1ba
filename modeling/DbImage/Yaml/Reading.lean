import DbImage.Yaml.Construction

/-!
Reading a YAML text into a value.
-/

namespace DbImage
namespace Yaml

/-- The characters that a text may hold. -/
def isAllowed (c : Char) : Bool :=
  c == '\t' || c == '\n' || c == '\r' || c == '\u0085'
    || (decide (0x20 ≤ c.toNat) && decide (c.toNat ≤ 0x7e))
    || (decide (0xa0 ≤ c.toNat) && decide (c.toNat ≤ 0xd7ff))
    || (decide (0xe000 ≤ c.toNat) && decide (c.toNat ≤ 0xfffd))
    || decide (0x10000 ≤ c.toNat)

/-- The value of the one document in a text, with collections down to a depth; none if there is no
document. -/
def read (depth : Nat) (text : List Char) : Except Fault (Datum LooseText) := do
  if !text.all isAllowed then .error .malformed
  let (g, root?) ← Graph.ofTokens (.ofText text)
  match root? with
  | some root => Construction.build g root depth
  | none => return .null

end Yaml
end DbImage
