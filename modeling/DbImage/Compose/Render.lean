import DbImage.Image.Contract
import DbImage.Text.JsonString
import DbImage.Text.Lowercase

/-!
The text of a compose file. Values are quoted so that neither the compose file's own reading nor its
variables change them; names, conditions and the service are written as they are.
-/

namespace DbImage
namespace Compose

variable {τ : Type}

/-- Doubles each dollar sign, so that the value is taken as it is and not as a variable. -/
def escape [TextLike τ] (value : τ) : τ :=
  TextLike.substitute (fun c => if c = '$' then ['$', '$'] else [c]) value

/-- A staged file as the compose file sees it: where it lies and where the container has it. -/
structure Mount where
  host : String
  target : String
  deriving DecidableEq, Repr

namespace Mount

/-- Scripts are mounted for reading only. -/
def volume (m : Mount) : String :=
  m.host ++ ":" ++ m.target ++ ":ro"

end Mount

/-- A value in quotes, safe from both readings. -/
def quote [TextLike τ] (value : τ) : String :=
  Text.embedded (escape value)

/-- The variables by name in lower case; names that differ only in case keep their order. -/
def sortedByName (env : Bindings τ) : Bindings τ :=
  env.mergeSort fun p q => decide (Text.lowercase p.1 ≤ Text.lowercase q.1)

def line (s : String) : String := s ++ "\n"

def header (imageRef : String) (conditions : List String) : String :=
  line ("# Generated by tcimages from " ++ imageRef)
    ++ line "# Ready when:"
    ++ String.join (conditions.map fun c => line ("#   - " ++ c))

/-- A heading and one line for each entry; without entries nothing at all. -/
def lines {α : Type} (heading : String) (entry : α → String) (entries : List α) : String :=
  if entries.isEmpty then "" else line heading ++ String.join (entries.map fun e => line (entry e))

def environmentLines [TextLike τ] (env : Bindings τ) : String :=
  lines "    environment:" (fun p => "      " ++ p.1 ++ ": " ++ quote p.2) (sortedByName env)

def commandLine (command : List String) : String :=
  if command.isEmpty then ""
  else line ("    command: [" ++ ", ".intercalate (command.map quote) ++ "]")

def volumeLines (mounts : List Mount) : String :=
  lines "    volumes:" (fun m => "      - " ++ quote m.volume) mounts

/-- The one-line forms of the conditions, if all of them have one. -/
def describeAll : List Readiness → Except Failure (List String)
  | [] => .ok []
  | r :: rest => do return (← r.describe) :: (← describeAll rest)

/-- The compose file for an image, as one service. -/
def render [TextLike τ] (c : Contract τ) (service : String) (mounts : List Mount) :
    Except Failure String := do
  let conditions ← describeAll c.ready
  return header c.imageRef conditions
    ++ line "services:"
    ++ line ("  " ++ service ++ ":")
    ++ line ("    image: " ++ Text.embedded c.imageRef)
    ++ environmentLines c.env
    ++ commandLine c.command
    ++ volumeLines mounts

end Compose
end DbImage
