import DbImage.Files.Loose
import DbImage.Image.Basic

/-!
A configuration: the declarative form of a database image. `calls` are the builder calls that it asks
for, and building carries them out on the default image. The texts of a configuration are loose ones,
and so are those of its image.
-/

namespace DbImage

/-- A script to run when the database is first started: a file, or the text itself. -/
inductive Script where
  | path (text : LooseText)
  | inline (text : LooseText)
  deriving DecidableEq, Repr

structure ImageConfig where
  image : LooseText
  dbName : Option LooseText
  user : Option LooseText
  password : Option LooseText
  hostAuth : Bool
  fsyncEnabled : Bool
  scripts : List Script
  deriving DecidableEq, Repr

namespace Script

/-- The value that a builder takes for the script. Paths are seen from `base`. -/
def value (base : Files.Reference LooseText) : Script → SourceValue LooseText
  | path text => .path (base.under (.ofLoose text))
  | inline text => .text text

end Script

namespace ImageConfig

def default : ImageConfig := ⟨"postgis", none, none, none, false, false, []⟩

/-- The settings, in order, and then the scripts. -/
def calls (c : ImageConfig) (base : Files.Reference LooseText) : List (BuilderCall LooseText) :=
  (c.dbName.map .dbName).toList
    ++ (c.user.map .user).toList
    ++ (c.password.map .password).toList
    ++ (if c.hostAuth then [.hostAuth] else [])
    ++ (if c.fsyncEnabled then [.fsyncEnabled] else [])
    ++ c.scripts.map fun s => .initSql (s.value base)

/-- The image that the configuration asks for. Paths of scripts are seen from `base`. -/
def build (c : ImageConfig) (base : String) : Except Failure (Image LooseText) := do
  let kind ← ImageKind.ofWord c.image
  (kind.image .default).calls (c.calls (.ofLoose base))

end ImageConfig
end DbImage
