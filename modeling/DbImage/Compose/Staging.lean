import DbImage.Compose.Render
import DbImage.Files.Host

/-!
Writing a compose file and, beside it, the files that it mounts. A destination is opened before its
source is read, and the compose file before its text is made; what fails leaves behind what was done
up to there.
-/

namespace DbImage
namespace Compose

open Files (Action)

variable {τ : Type} [TextLike τ]

/-- The directory for staged files, beside the compose file. -/
def stagingDirectory : String := "initdb"

def fileName : String := "docker-compose.yml"

/-- Stages one file under the last step of its target. -/
def stageItem (directory : String) (item : StagedItem τ) : Action Mount := do
  let name := Files.baseName item.target
  let place ← Action.openForWriting (Files.join directory name)
  let content ← item.source.read
  Action.put place (.file content)
  Action.record (.staged name item.target)
  return ⟨"./" ++ stagingDirectory ++ "/" ++ name, item.target⟩

def stageItems (directory : String) : List (StagedItem τ) → Action (List Mount)
  | [] => return []
  | item :: rest => do
    let mount ← stageItem directory item
    return mount :: (← stageItems directory rest)

/-- Stages the files of an image under an output directory. An image without any makes no
directory. -/
def stage (c : Contract τ) (out : String) : Action (List Mount) := do
  if c.copies.isEmpty then return []
  let directory := Files.join out stagingDirectory
  Action.ensureDirectories directory
  stageItems directory c.copies

/-- Writes the staged files and the compose file of an image, and answers with the compose file's
path. -/
def convert (c : Contract τ) (service out : String) : Action String := do
  Action.ensureDirectories out
  let mounts ← stage c out
  let path := Files.join out fileName
  let place ← Action.openForWriting path
  let text ← MonadExcept.ofExcept (render c service mounts)
  Action.put place (.file text.toUTF8)
  Action.record (.composeWritten c.imageRef path)
  return path

end Compose
end DbImage
