import DbImage.Checks
import DbImage.Config.Basic

/-!
Checking a configuration. Every field is looked at, every key that names no field is an issue, and
the issues come in the order of the fields with the keys that name none at the end.
-/

namespace DbImage

namespace Checks

/-- The check of a field of a mapping that may be missing. -/
def entry {α : Type} (entries : Entries LooseText) (name : String) (missing : α)
    (check : Datum LooseText → Checked α) : Checked α :=
  match Datum.entry? entries name with
  | some d => (check d).inside (.key name)
  | none => .ok missing

/-- What is wrong with a key that names no field. -/
def strayComplaint : Scalar LooseText → Complaint
  | .text _ => .unknownKey
  | _ => .keyNotText

/-- The keys that name none of the fields. -/
def strays (fields : List String) (entries : Entries LooseText) : List Issue :=
  (entries.map (·.1)).filterMap fun key =>
    if key ∈ fields.map fun name => .text ↑name then none
    else some ⟨[.ofKey key], strayComplaint key⟩

/-- A key that is no text of characters cannot be compared with the names of fields. -/
def isLooseKey : Scalar LooseText → Bool
  | .text s => s.toString?.isNone
  | _ => false

/-- The check of a record by its fields. A key that cannot be compared ends it: whatever else is
wrong is not said. -/
def record {α : Type} (entries : Entries LooseText) (check : Checked α) : Checked α :=
  if entries.any (isLooseKey ·.1) then Checked.complain .notUtf8 else check

/-- Text, or a number for its text. Numbers are written in full; one with too many digits is not. -/
def credential : Datum LooseText → Checked LooseText
  | .scalar (.int n) =>
    if Number.digitLimit < (Nat.repr n.natAbs).length then Checked.complain .tooManyDigits
    else .ok (toString n)
  | .scalar (.float x) => .ok x.toText
  | d => text d

/-- The elements of a list, each checked at its position. -/
def elements {α β : Type} (check : α → Checked β) : Nat → List α → Checked (List β)
  | _, [] => .ok []
  | n, a :: rest =>
    match (check a).inside (.index n), elements check (n + 1) rest with
    | .ok b, .ok bs => .ok (b :: bs)
    | b, bs => .error (b.issues ++ bs.issues)

end Checks

namespace Script

def fields : List String := ["path", "inline"]

def oneFieldRule : String := "init_sql entries need exactly one of 'path' or 'inline'"

/-- A script given by its fields, of which one is to be set. -/
def ofEntries (entries : Entries LooseText) : Checked Script :=
  let path := Checks.entry entries "path" none (Checks.optional Checks.text)
  let inline := Checks.entry entries "inline" none (Checks.optional Checks.text)
  let strays := Checks.strays fields entries
  match path, inline, strays with
  | .ok (some p), .ok none, [] => .ok (.path p)
  | .ok none, .ok (some t), [] => .ok (.inline t)
  | .ok _, .ok _, [] => Checked.complain (.brokenRule oneFieldRule)
  | path, inline, strays => .error (path.issues ++ inline.issues ++ strays)

def ofMapping : Datum LooseText → Checked Script
  | .map entries => Checks.record entries (ofEntries entries)
  | _ => Checked.complain (.notRecord "InitSqlEntry")

/-- A bare text stands for a path. -/
def ofDatum : Datum LooseText → Checked Script
  | .scalar (.text s) => .ok (.path s)
  | d => ofMapping d

/-- A list of scripts. The members of a set or of a pair are taken one by one, without the bare text;
no member of a set is a script. -/
def listOfDatum : Datum LooseText → Checked (List Script)
  | .list items => Checks.elements ofDatum 0 items
  | .set items => Checks.elements (fun s => ofMapping (.scalar s)) 0 items
  | .pair first second => Checks.elements ofMapping 0 [first, second]
  | _ => Checked.complain .notList

end Script

namespace ImageConfig

def fields : List String :=
  ["image", "db_name", "user", "password", "host_auth", "fsync_enabled", "init_sql"]

def ofEntries (entries : Entries LooseText) : Checked ImageConfig :=
  let image := Checks.entry entries "image" default.image Checks.text
  let dbName := Checks.entry entries "db_name" none (Checks.optional Checks.credential)
  let user := Checks.entry entries "user" none (Checks.optional Checks.credential)
  let password := Checks.entry entries "password" none (Checks.optional Checks.credential)
  let hostAuth := Checks.entry entries "host_auth" false Checks.bool
  let fsyncEnabled := Checks.entry entries "fsync_enabled" false Checks.bool
  let scripts := Checks.entry entries "init_sql" [] Script.listOfDatum
  let issues := image.issues ++ dbName.issues ++ user.issues ++ password.issues ++ hostAuth.issues
    ++ fsyncEnabled.issues ++ scripts.issues ++ Checks.strays fields entries
  match image, dbName, user, password, hostAuth, fsyncEnabled, scripts, issues with
  | .ok image, .ok dbName, .ok user, .ok password, .ok hostAuth, .ok fsyncEnabled, .ok scripts, [] =>
    .ok ⟨image, dbName, user, password, hostAuth, fsyncEnabled, scripts⟩
  | _, _, _, _, _, _, _, issues => .error issues

/-- Checks a value of any shape against the form of a configuration. -/
def ofDatum : Datum LooseText → Checked ImageConfig
  | .map entries => Checks.record entries (ofEntries entries)
  | _ => Checked.complain (.notRecord "ImageConfig")

end ImageConfig
end DbImage
