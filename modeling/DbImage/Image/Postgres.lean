import DbImage.Image.Contract

/-!
A disposable Postgres server. A description is never changed: each builder call gives a new one. Its
contract is read off the fields, so two descriptions with the same fields are the same image.
-/

namespace DbImage

/-- A Postgres image under construction. `env` holds what was given; after the first setting it is
sorted and each name stands once. -/
structure Postgres (τ : Type := String) where
  env : List (String × τ)
  initSql : List (StagedItem τ)
  fsyncEnabled : Bool
  deriving DecidableEq

/-- A call of a builder. Names and passwords are texts, which is all that a builder promises to take;
a script is a value of any kind, and the builder says which it refuses. -/
inductive BuilderCall (τ : Type := String) where
  | hostAuth
  | dbName (s : τ)
  | user (s : τ)
  | password (s : τ)
  | initSql (value : SourceValue τ)
  | fsyncEnabled
  deriving DecidableEq

namespace Postgres

variable {τ : Type}

def name : String := "postgres"

def tag : String := "11-alpine"

/-- The directory whose scripts the container runs when it first starts. -/
def initDirectory : String := "/docker-entrypoint-initdb.d"

def readyMessage : String := "database system is ready to accept connections"

def defaultEnv [TextLike τ] : List (String × τ) :=
  let word := TextLike.ofString "postgres"
  [("POSTGRES_DB", word), ("POSTGRES_PASSWORD", word), ("POSTGRES_USER", word)]

def default [TextLike τ] : Postgres τ := ⟨defaultEnv, [], false⟩

instance : Inhabited Postgres := ⟨default⟩

/-- Sets a variable. The result is sorted by name, each name once. -/
def setVariable (p : Postgres τ) (name : String) (value : τ) : Postgres τ :=
  { p with env := ((Bindings.ofPairs p.env).put name value).sorted }

def scriptTarget (n : Nat) : String :=
  initDirectory ++ "/init_" ++ toString n ++ ".sql"

/-- Adds a script after those already there. -/
def addScript (p : Postgres τ) (source : Source τ) : Postgres τ :=
  { p with initSql := p.initSql ++ [⟨scriptTarget p.initSql.length, source⟩] }

/-- Carries out a builder call. Only the value of a script can be refused. -/
def call [TextLike τ] (p : Postgres τ) : BuilderCall τ → Except Failure (Postgres τ)
  | .hostAuth => .ok (p.setVariable "POSTGRES_HOST_AUTH_METHOD" (TextLike.ofString "trust"))
  | .dbName s => .ok (p.setVariable "POSTGRES_DB" s)
  | .user s => .ok (p.setVariable "POSTGRES_USER" s)
  | .password s => .ok (p.setVariable "POSTGRES_PASSWORD" s)
  | .initSql value => (Source.ofValue value).map p.addScript
  | .fsyncEnabled => .ok { p with fsyncEnabled := true }

/-- The server writes the message first where it sets itself up and then where it is ready. -/
def ready : List Readiness :=
  [.onStderr readyMessage, .onStdout readyMessage]

/-- Durability does not matter for a database that is thrown away, so syncing to disk is off unless it
was asked for. -/
def command (p : Postgres τ) : List String :=
  if p.fsyncEnabled then [] else ["-c", "fsync=off"]

def contract (p : Postgres τ) : Contract τ where
  name := name
  tag := tag
  ready := ready
  env := Bindings.ofPairs p.env
  copies := p.initSql
  command := p.command

@[simp]
theorem initSql_setVariable (p : Postgres τ) (n : String) (v : τ) :
    (p.setVariable n v).initSql = p.initSql := rfl

@[simp]
theorem fsyncEnabled_setVariable (p : Postgres τ) (n : String) (v : τ) :
    (p.setVariable n v).fsyncEnabled = p.fsyncEnabled := rfl

@[simp]
theorem length_initSql_addScript (p : Postgres τ) (s : Source τ) :
    (p.addScript s).initSql.length = p.initSql.length + 1 := by
  simp [addScript]

end Postgres
end DbImage
