import DbImage.Checks
import DbImage.Files.Host
import DbImage.Instances
import DbImage.Text.Base64

/-!
What is copied into a container: content that is given at once, or a reference to a file that is read
when the container is prepared and not before. `StagedFile` is the form in which an item is written
down.
-/

namespace DbImage

open Files (Reference)

/-- Where the content of a staged file comes from. -/
inductive Source (τ : Type := String) where
  | inline (content : ByteArray)
  | reference (path : Reference τ)
  deriving DecidableEq

/-- What a caller may hand in as a source. -/
inductive SourceValue (τ : Type := String) where
  | text (s : τ)
  | bytes (b : ByteArray)
  | path (r : Reference τ)
  | source (s : Source τ)
  /-- A value of a kind that is no source. -/
  | other (kind : String)
  deriving DecidableEq

namespace SourceValue

def kindOf : Datum → String
  | .scalar .null => "NoneType"
  | .scalar (.bool _) => "bool"
  | .scalar (.int _) => "int"
  | .scalar (.float _) => "float"
  | .scalar (.text _) => "str"
  | .scalar (.bytes _) => "bytes"
  | .scalar (.date _) => "date"
  | .scalar (.moment _) => "datetime"
  | .path _ => "PosixPath"
  | .list _ => "list"
  | .set _ => "set"
  | .pair _ _ => "tuple"
  | .map _ => "dict"

/-- Text, bytes and paths are sources; a value of any other kind is none. -/
def ofDatum : Datum → SourceValue
  | .scalar (.text s) => text s
  | .scalar (.bytes b) => bytes b
  | .path r => path r
  | d => other (kindOf d)

end SourceValue

namespace Source

def isInline : Source → Bool
  | inline _ => true
  | reference _ => false

/-- Text is taken as its UTF-8 form, if it has one. -/
def ofValue {τ : Type} [TextLike τ] : SourceValue τ → Except Failure (Source τ)
  | .text s =>
    match TextLike.utf8? s with
    | some bytes => .ok (inline bytes)
    | none => .error .unencodable
  | .bytes b => .ok (inline b)
  | .path r => .ok (reference r)
  | .source s => .ok s
  | .other kind => .error (.unsupportedSource kind)

/-- The rule that ties the two fields of a source together. -/
def oneFieldRule : String := "exactly one of 'data' or 'path' must be set"

/-- Makes a source from its two fields, of which one is to be set. -/
def ofFields (fields : List (String × Datum)) : Checked Source :=
  let data := Checks.field fields "data" none (Checks.optional Checks.bytes)
  let path := Checks.field fields "path" none (Checks.optional Checks.path)
  match data, path with
  | .ok (some content), .ok none => .ok (inline content)
  | .ok none, .ok (some r) => .ok (reference r)
  | .ok _, .ok _ => Checked.complain (.brokenRule oneFieldRule)
  | data, path => .error (data.issues ++ path.issues)

/-- What the file of a reference holds now. -/
def fileContent (h : Files.Host) (path : Reference) : Except Failure ByteArray :=
  match h.read path.text with
  | .ok bytes => .ok bytes
  | .error .nulInPath => .error .badValue
  | .error (.refused r) => .error (.unreadableSource path r)

/-- The content, of a file the bytes that it holds now. Files are named by characters alone. -/
def content {τ : Type} [TextLike τ] (h : Files.Host) : Source τ → Except Failure ByteArray
  | inline bytes => .ok bytes
  | reference path =>
    match path.toString? with
    | some path => fileContent h path
    | none => .error .unencodable

/-- Reads the content and leaves a trace of it in the log, if there is a file to read. -/
def read {τ : Type} [TextLike τ] (s : Source τ) : Files.Action ByteArray := do
  match s with
  | inline _ => pure ()
  | reference path => Files.Action.record (.readingSource (TextLike.shown path.text))
  MonadExcept.ofExcept (s.content (← get))

theorem content_inline (h : Files.Host) (bytes : ByteArray) :
    (inline bytes : Source).content h = .ok bytes := rfl

theorem content_reference (h : Files.Host) (path : Reference) :
    (reference path).content h = fileContent h path := by
  rw [content, Files.Reference.toString?_string]

/-- Text and its UTF-8 form are one source. -/
theorem ofValue_text (s : String) : ofValue (.text s) = ofValue (.bytes s.toUTF8) := rfl

end Source

/-- A source and the place in the container that it is copied to. -/
structure StagedItem (τ : Type := String) where
  target : String
  source : Source τ
  deriving DecidableEq

inductive Encoding where
  | utf8
  | base64
  deriving DecidableEq, Repr

namespace Encoding

def word : Encoding → String
  | utf8 => "utf-8"
  | base64 => "base64"

end Encoding

/-- The written form of a staged item: a path, or content with the encoding that gives it back. -/
inductive StagedForm (τ : Type := String) where
  | path (text : τ)
  | content (text : String) (encoding : Encoding)
  deriving DecidableEq, Repr

structure StagedFile (τ : Type := String) where
  target : String
  form : StagedForm τ
  deriving DecidableEq, Repr

namespace StagedFile

variable {τ : Type}

/-- Content that is UTF-8 is written as its text, any other in base 64. -/
def formOf (bytes : ByteArray) : StagedForm τ :=
  match String.fromUTF8? bytes with
  | some s => .content s .utf8
  | none => .content (Text.Base64.encodeBytes bytes) .base64

def ofItem [TextLike τ] (item : StagedItem τ) : StagedFile τ where
  target := item.target
  form :=
    match item.source with
    | .inline bytes => formOf bytes
    | .reference path => .path path.text

/-- The bytes that a written form stands for, if it holds them. -/
def bytes? (f : StagedFile τ) : Option ByteArray :=
  match f.form with
  | .path _ => none
  | .content s .utf8 => some s.toUTF8
  | .content s .base64 => (Text.Base64.decode? s.toList).map fun bs => ⟨bs.toArray⟩

end StagedFile
end DbImage
