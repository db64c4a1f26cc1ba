import DbImage.Command.Arguments
import DbImage.Compose.Staging
import DbImage.Config.Reading
import DbImage.Document.Yaml

/-!
Running a command line: reading its arguments, building the image they ask for, and describing or
converting it. The outcome is all that the caller of the program sees, besides the files; only the
texts that answer a misuse and a call for help are left out of it.
-/

namespace DbImage
namespace Command

open Files (Action Host)

/-- What a run leaves behind, besides files. -/
structure Outcome where
  exitCode : Nat
  stdout : String
  stderr : String
  /-- The failure that ended the program, if it was not one that the program reports. -/
  crash? : Option Failure
  deriving DecidableEq

/-- The configuration to start from and the directory that its paths are seen from. -/
def startingPoint (r : Request) : Action (ImageConfig × String) := do
  match r.value? .config with
  | none => return (.default, ".")
  | some path =>
    if path.isEmpty then return (.default, ".")
    let bindings ← Variables.gather none (r.value? .envFile)
    let config ← ImageConfig.ofFile path bindings
    return (config, ImageConfig.directoryOf (← get) path)

/-- The builder calls that settings ask for, on top of those of the configuration. -/
def calls (r : Request) : List (BuilderCall LooseText) :=
  ((r.text? .dbName).map .dbName).toList
    ++ ((r.text? .user).map .user).toList
    ++ ((r.text? .password).map .password).toList
    ++ (if r.has .hostAuth then [.hostAuth] else [])
    ++ (if r.has .fsync then [.fsyncEnabled] else [])
    ++ (r.values .initSql).map fun path => .initSql (.path (.ofLoose path))

/-- Builds the image. An image that is named takes the place of the configuration's. -/
def buildImage (r : Request) : Action (Image LooseText) := do
  let (config, base) ← startingPoint r
  let config := { config with image := (r.text? .image).getD config.image }
  let image ← MonadExcept.ofExcept (config.build base)
  let image ← MonadExcept.ofExcept (image.calls (calls r))
  Action.record (.built image.contract.imageRef)
  return image

/-- The description of the image, as JSON unless YAML is asked for. -/
def describe (r : Request) : Action String := do
  let descriptor := (← buildImage r).contract.describe
  if r.value? .format = some "yaml" then return Document.toYaml descriptor.fields
  else return descriptor.document.toJson ++ "\n"

/-- Writes the compose file and says where it is. -/
def convert (r : Request) : Action String := do
  let contract := (← buildImage r).contract
  let service := (r.value? .service).getD "db"
  let path ← Compose.convert contract service ((r.value? .out).getD "compose")
  return "Compose file generated in " ++ path ++ "\n"

def perform (r : Request) : Action String :=
  match r.verb with
  | .describe => describe r
  | .convert => convert r

/-- The log as it is shown: all of it to the verbose, and otherwise the warnings. -/
def shownLog (verbose : Bool) (log : List Event) : String :=
  let least := if verbose then Level.debug else Level.warning
  String.join ((log.filter fun e => least.rank ≤ e.level.rank).map Event.line)

def usage : Outcome := ⟨2, "", "", none⟩

def helped : Outcome := ⟨0, "", "", none⟩

/-- What the caller sees of a result. -/
def outcomeOf (verbose : Bool) (log : List Event) : Except Failure String → Outcome
  | .ok stdout => ⟨0, stdout, shownLog verbose log, none⟩
  | .error failure =>
    match failure.reported? with
    | some message => ⟨1, "", shownLog verbose log ++ "Error: " ++ message ++ "\n", none⟩
    | none => ⟨1, "", shownLog verbose log, some failure⟩

def run (args : List String) (h : Host) : Outcome × Host :=
  match asked args with
  | .misuse => (usage, h)
  | .help => (helped, h)
  | .request r =>
    match r.check h with
    | .error .refused => (usage, h)
    | .error (.failed failure) => (⟨1, "", "", some failure⟩, h)
    | .ok () =>
      let (result, h') := (perform r).on { h with log := [] }
      (outcomeOf r.verbose h'.log result, h')

end Command
end DbImage
