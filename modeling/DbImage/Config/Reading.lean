import DbImage.Config.Check
import DbImage.EnvFile
import DbImage.Files.Host
import DbImage.Interpolation
import DbImage.Text.Lines
import DbImage.Yaml.Reading

/-!
Reading configurations: the variables to put in, the text with them put in, and what that says. A file
is read by way of its text, so all that can be said about configurations is said about texts.
-/

namespace DbImage

open Files (Action Host)

namespace Failure

/-- A fault in a YAML text, as a configuration reports it. Some faults are beyond what it reports. -/
def ofYaml : Yaml.Fault → Failure
  | .malformed => .config (.invalidYaml .malformed)
  | .badValue => .config (.invalidYaml .badValue)
  | .tooLarge => .tooLarge
  | .unknownWord word => .missingKey word
  | .noMatch => .noSuchPart
  | .wrongShape => .wrongType
  | .emptyNumber => .outOfRange

end Failure

/-! ## Variables -/

namespace Variables

def textOf (bytes : ByteArray) : Except Failure (List Char) :=
  match String.fromUTF8? bytes with
  | some s => .ok (Text.unifyLineEnds s.toList)
  | none => .error .notUtf8

/-- The statements of an env file. What is there and is no file has none. -/
def statements (path : String) : Action (List EnvFile.Statement) := do
  let h ← get
  if !h.isFile path then return []
  match h.read path with
  | .error fault => throw (Failure.ofFault fault)
  | .ok bytes => return EnvFile.statements (← MonadExcept.ofExcept (textOf bytes))

def ofFile (path : String) : Action Bindings := do
  if ((← get).find? path).isNone then throw (.config (.missingEnvFile path))
  let ss ← statements path
  for line in EnvFile.badLines ss do
    Action.record (.badStatement line)
  let b := EnvFile.bindings (← get).environment ss
  Action.record (.variablesLoaded b.length path)
  return b

/-- The variables for a configuration: the context, or the environment if there is no context, and
what the env file adds to it. An empty path means no env file. -/
def gather (context? : Option Bindings) (envFile? : Option String) : Action Bindings := do
  let context := context?.getD (← get).environment
  match envFile? with
  | none => return context
  | some path =>
    if path.isEmpty then return context
    return (← ofFile path).overlay context

end Variables

/-! ## Texts and files -/

namespace ImageConfig

/-- How deep a value is looked at: the entries, the list of scripts, a script, and its fields. -/
def depth : Nat := 4

/-- Checks what a text says. A text that says nothing asks for the defaults. -/
def ofValue : Datum LooseText → Except Failure ImageConfig
  | .scalar .null => .ok default
  | .map entries => (ofDatum (.map entries)).mapError fun issues => .config (.invalid issues)
  | _ => .error (.config .notMapping)

/-- The configuration that a text describes, once variables are put in. -/
def ofText (text : String) (bindings : Bindings) : Except Failure ImageConfig := do
  let text ← (Interpolation.interpolate text bindings).mapError fun name =>
    .config (.unsetVariable name)
  let value ← (Yaml.read depth text.toList).mapError Failure.ofYaml
  ofValue value

def textOfFile (path : String) : Action String := do
  match (← get).read path with
  | .error .nulInPath => throw .badValue
  | .error (.refused r) => throw (.config (.unreadable path r))
  | .ok bytes => return String.ofList (← MonadExcept.ofExcept (Variables.textOf bytes))

def ofFile (path : String) (bindings : Bindings) : Action ImageConfig := do
  let text ← textOfFile path
  Action.record (.parsingConfig path)
  MonadExcept.ofExcept (ofText text bindings)

/-- The directory of a file, as a path from the root. -/
def directoryOf (h : Host) (path : String) : String :=
  Files.dirName (Files.absolute ("/" ++ "/".intercalate h.workingDirectory) path)

/-- The image that a configuration file describes. Paths in it are seen from the file's directory. -/
def load (path : String) (bindings : Bindings) : Action (Image LooseText) := do
  let config ← ofFile path bindings
  MonadExcept.ofExcept (config.build (directoryOf (← get) path))

end ImageConfig
end DbImage
