import DbImage.Yaml.Cursor

/-!
The tokens of a YAML text. The block structure, which the text shows by indentation alone, has tokens
of its own.
-/

namespace DbImage
namespace Yaml

inductive Directive where
  | version (major minor : Nat)
  | tag (handle uri : List Char)
  | other
  deriving DecidableEq, Repr

inductive Token where
  | directive (d : Directive)
  | documentStart
  | documentEnd
  | streamEnd
  | blockSequenceStart
  | blockMappingStart
  | blockEnd
  | flowSequenceStart
  | flowSequenceEnd
  | flowMappingStart
  | flowMappingEnd
  | blockEntry
  | flowEntry
  | key
  | value
  | alias (name : List Char)
  | anchor (name : List Char)
  /-- A tag; without a handle the suffix is all of it. -/
  | tag (handle? : Option (List Char)) (suffix : List Char)
  /-- A scalar, which is plain if it stands without quotes and without an indicator. -/
  | scalar (text : List CodePoint) (plain : Bool)
  deriving DecidableEq, Repr

end Yaml
end DbImage
