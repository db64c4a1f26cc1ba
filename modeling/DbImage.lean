import DbImage.Main
import DbImage.Session
import DbImage.Proofs.Compose.Comments
import DbImage.Proofs.Compose.FailedConversion
import DbImage.Proofs.Compose.Mounts
import DbImage.Proofs.Compose.References
import DbImage.Proofs.Compose.Scalars
import DbImage.Proofs.Config.Acceptance
import DbImage.Proofs.Config.Failures
import DbImage.Proofs.Config.Chains
import DbImage.Proofs.Config.Credentials
import DbImage.Proofs.Document.Same
import DbImage.Proofs.Files.Reference
import DbImage.Proofs.Image.Description
import DbImage.Proofs.Image.ScriptOrder
import DbImage.Proofs.Image.Wrapping
import DbImage.Proofs.Interpolation.Joining
import DbImage.Proofs.Interpolation.Reading
import DbImage.Proofs.Text.Base64
import DbImage.Proofs.Command.Overlay
import DbImage.Proofs.Compose.UnreadableScript
import DbImage.Proofs.Config.Precedence
import DbImage.Proofs.Config.Isolation
import DbImage.Proofs.Config.Unreadable
import DbImage.Proofs.Compose.Repeat
import DbImage.Proofs.Session.Deletion
import DbImage.Proofs.Command.Describing
import DbImage.Proofs.Files.Lexical
import DbImage.Proofs.Config.Loading
import DbImage.Proofs.Image.StagedFile
import DbImage.Files.Loose
import DbImage.Proofs.Files.Loose
