import DbImage.Bindings
import DbImage.Document
import DbImage.Readiness
import DbImage.Source

/-!
What a container runtime needs to know to start a container, whatever kind of image it is: identity,
variables, readiness, the files to stage and the command. A `Contract` is the answer to all of these
at once; `describe` is its form as data.
-/

namespace DbImage

structure Contract (τ : Type := String) where
  name : String
  tag : String
  ready : List Readiness
  env : Bindings τ
  copies : List (StagedItem τ)
  command : List String
  deriving DecidableEq

namespace Contract

variable {τ : Type}

/-- What the image is called. Nothing else in a contract depends on it. -/
def identity (c : Contract τ) : String × String :=
  (c.name, c.tag)

/-- The name that a registry knows the image by. -/
def imageRef (c : Contract τ) : String :=
  c.name ++ ":" ++ c.tag

/-! Long-form names of the parts. -/

def readinessConditions (c : Contract τ) : List Readiness := c.ready

def environmentVariables (c : Contract τ) : Bindings τ := c.env

def filesToStage (c : Contract τ) : List (StagedItem τ) := c.copies

def startupCommand (c : Contract τ) : List String := c.command

end Contract

namespace Readiness

/-- A condition as data; what is not set is left out. -/
def document {τ : Type} [TextLike τ] (r : Readiness) : Document τ :=
  .record <|
    ("kind", .string r.kind.word)
      :: Document.optional "message" r.message .string
      ++ Document.optional "duration" r.duration .number
      ++ Document.optional "exit_code" r.exitCode .integer

end Readiness

namespace StagedFile

def document {τ : Type} [TextLike τ] (f : StagedFile τ) : Document τ :=
  .record <|
    ("target", .string f.target) ::
      match f.form with
      | .path text => [("path", .text text)]
      | .content text encoding => [("content", .string text), ("encoding", .string encoding.word)]

end StagedFile

/-- A description of an image at one moment. Files it refers to are named and not read. -/
structure Descriptor (τ : Type := String) where
  name : String
  tag : String
  env : Bindings τ
  ready : List Readiness
  copies : List (StagedFile τ)
  command : List String
  deriving DecidableEq

namespace Descriptor

variable {τ : Type}

def imageRef (d : Descriptor τ) : String :=
  d.name ++ ":" ++ d.tag

def fields [TextLike τ] (d : Descriptor τ) : List (String × Document τ) :=
  [("name", .string d.name),
   ("tag", .string d.tag),
   ("env_vars", .record (d.env.map fun (n, v) => (n, .text v))),
   ("ready_conditions", .list (d.ready.map Readiness.document)),
   ("copy_to_sources", .list (d.copies.map StagedFile.document)),
   ("cmd", .texts d.command)]

def document [TextLike τ] (d : Descriptor τ) : Document τ := .record d.fields

end Descriptor

namespace Contract

def describe {τ : Type} [TextLike τ] (c : Contract τ) : Descriptor τ where
  name := c.name
  tag := c.tag
  env := c.env
  ready := c.ready
  copies := c.copies.map StagedFile.ofItem
  command := c.command

end Contract
end DbImage
