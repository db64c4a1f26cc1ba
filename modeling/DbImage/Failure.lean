import DbImage.Files.Fault
import DbImage.Issue

/-!
Everything that can go wrong, by cause. The wording of a cause is written here, where it has one.
-/

namespace DbImage

inductive YamlCause where
  /-- The text breaks a rule of the format. -/
  | malformed
  /-- A scalar has the form of a number or a date and no such value. -/
  | badValue
  deriving DecidableEq, Repr

inductive ConfigFailure where
  | unknownImage (name : LooseText) (known : List String)
  | unsetVariable (name : String)
  | invalidYaml (cause : YamlCause)
  | notMapping
  | invalid (issues : List Issue)
  | missingEnvFile (path : String)
  | unreadable (path : String) (refusal : Files.Refusal)
  deriving DecidableEq, Repr

namespace ConfigFailure

/-- The wording, as an error stream shows it. What a YAML or a schema message adds in detail is left
to the issues. -/
def message : ConfigFailure → String
  | unknownImage name known =>
    "Unknown image '" ++ TextLike.shown name ++ "' (expected one of: " ++ ", ".intercalate known ++ ")"
  | unsetVariable name => "Variable " ++ name ++ " is not set and has no default"
  | invalidYaml _ => "Invalid YAML"
  | notMapping => "Image config must be a mapping"
  | invalid _ => "Invalid image config"
  | missingEnvFile path => "Env file not found: " ++ path
  | unreadable path refusal => "Cannot read config file " ++ path ++ ": " ++ refusal.message

end ConfigFailure

inductive Failure where
  | config (cause : ConfigFailure)
  /-- The file that a staged item refers to cannot be read. -/
  | unreadableSource (path : Files.Reference) (refusal : Files.Refusal)
  | refused (refusal : Files.Refusal)
  /-- A value of this kind is no content for a staged file. -/
  | unsupportedSource (kind : String)
  /-- The fields handed to a record do not make one. -/
  | invalid (record : String) (issues : List Issue)
  /-- Nothing is known under this name. -/
  | missingKey (name : LooseText)
  /-- A text or number is outside what its reader takes. -/
  | badValue
  /-- A number is beyond the range of floating point. -/
  | tooLarge
  /-- Bytes of a text file are no UTF-8. -/
  | notUtf8
  /-- A text has no UTF-8 form, since it holds half of a surrogate pair. -/
  | unencodable
  /-- The value is of a kind that the operation does not take. -/
  | wrongType
  /-- The value has no such part. -/
  | noSuchPart
  /-- A position past the end. -/
  | outOfRange
  deriving DecidableEq

namespace Failure

/-- A file operation's fault, where nothing more is known about it. -/
def ofFault : Files.Fault → Failure
  | .nulInPath => .badValue
  | .refused r => .refused r

/-- The failures a command reports in its own words; any other ends it unreported. -/
def reported? : Failure → Option String
  | .config cause => some cause.message
  | .unreadableSource path refusal =>
    some ("Cannot read " ++ path.text ++ ": " ++ refusal.message)
  | _ => none

end Failure
end DbImage
