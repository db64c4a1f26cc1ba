import DbImage.Bindings
import DbImage.Failure
import DbImage.Files.Path
import DbImage.Files.Tree
import DbImage.Log

/-!
The machine that the library works on: its files, the working directory, the variables of the
environment, and the log. Queries are functions of the machine; what changes it is an `Action`,
which keeps its changes when it fails.
-/

namespace DbImage
namespace Files

structure Host where
  files : Tree
  workingDirectory : Location
  environment : Bindings
  log : List Event

/-- A computation on the machine that can fail part of the way. -/
abbrev Action (α : Type) := ExceptT Failure (StateM Host) α

/-- The longest name of one step, and the longest path, in bytes. -/
def nameLimit : Nat := 255

def pathLimit : Nat := 4095

/-- Where a path leads once all but its last step are followed. -/
inductive Destination where
  /-- The last step leads back to a directory already passed: it is the root, `.` or `..`. -/
  | passed (directory : Location)
  /-- The last step is a name, with or without a slash after it. -/
  | child (directory : Location) (name : String) (slash : Bool)
  deriving DecidableEq, Repr

namespace Tree

/-- Goes one step from a directory into another. -/
def enter (t : Tree) (here : Location) (step : String) : Except Reason Location :=
  if step = "." then .ok here
  else if step = ".." then .ok here.dropLast
  else if nameLimit < step.utf8ByteSize then .error .nameTooLong
  else
    match t.get? (here ++ [step]) with
    | none => .error .noEntry
    | some (.file _) => .error .notDirectory
    | some .directory => .ok (here ++ [step])

/-- Follows steps that must all lead to directories. -/
def walk (t : Tree) (here : Location) : List String → Except Reason Location
  | [] => .ok here
  | step :: rest =>
    match t.enter here step with
    | .ok there => walk t there rest
    | .error e => .error e

end Tree

namespace Host

/-- Follows a path up to its last step. -/
def locate (h : Host) (path : String) : Except Reason Destination :=
  if path.isEmpty then .error .noEntry
  else if pathLimit < path.utf8ByteSize then .error .nameTooLong
  else
    let start := if startsAtRoot path then [] else h.workingDirectory
    let all := steps path
    match all.getLast? with
    | none => .ok (.passed start)
    | some last =>
      match h.files.walk start all.dropLast with
      | .error e => .error e
      | .ok here =>
        if last = "." then .ok (.passed here)
        else if last = ".." then .ok (.passed here.dropLast)
        else .ok (.child here last (endsInSlash path))

/-- What a path names. A slash at the end admits only a directory. -/
def status (h : Host) (path : String) : Except Reason Entry :=
  match h.locate path with
  | .error e => .error e
  | .ok (.passed _) => .ok .directory
  | .ok (.child here name slash) =>
    if nameLimit < name.utf8ByteSize then .error .nameTooLong
    else
      match h.files.get? (here ++ [name]) with
      | none => .error .noEntry
      | some .directory => .ok .directory
      | some (.file content) => if slash then .error .notDirectory else .ok (.file content)

def holdsNul (path : String) : Bool :=
  path.toList.contains '\u0000'

/-- What a path names, if it names anything. -/
def find? (h : Host) (path : String) : Option Entry :=
  if holdsNul path then none else (h.status path).toOption

def isDirectory (h : Host) (path : String) : Bool :=
  h.find? path == some .directory

def isFile (h : Host) (path : String) : Bool :=
  match h.find? path with
  | some (.file _) => true
  | _ => false

/-- Attaches the path to a reason. -/
def refusing {α : Type} (path : String) : Except Reason α → Except Fault α
  | .ok a => .ok a
  | .error reason => .error (.refused ⟨reason, path⟩)

def read (h : Host) (path : String) : Except Fault ByteArray :=
  if holdsNul path then .error .nulInPath
  else
    refusing path <|
      match h.status path with
      | .error e => .error e
      | .ok .directory => .error .isDirectory
      | .ok (.file content) => .ok content

/-- The place of a file that is to be written: what stands there is no directory, and the directory
around it exists. -/
def writable (h : Host) (path : String) : Except Fault Location :=
  if holdsNul path then .error .nulInPath
  else
    refusing path <|
      match h.locate path with
      | .error e => .error e
      | .ok (.passed _) => .error .isDirectory
      | .ok (.child here name slash) =>
        if slash then .error .isDirectory
        else if nameLimit < name.utf8ByteSize then .error .nameTooLong
        else
          match h.files.get? (here ++ [name]) with
          | some .directory => .error .isDirectory
          | _ => .ok (here ++ [name])

/-- The place of a directory that is to be made: nothing stands there yet. -/
def vacant (h : Host) (path : String) : Except Fault Location :=
  if holdsNul path then .error .nulInPath
  else
    refusing path <|
      match h.locate path with
      | .error e => .error e
      | .ok (.passed _) => .error .alreadyThere
      | .ok (.child here name _) =>
        if nameLimit < name.utf8ByteSize then .error .nameTooLong
        else
          match h.files.get? (here ++ [name]) with
          | some _ => .error .alreadyThere
          | none => .ok (here ++ [name])

def put (h : Host) (l : Location) (e : Entry) : Host :=
  { h with files := h.files.set l e }

@[simp]
theorem files_put (h : Host) (l : Location) (e : Entry) : (h.put l e).files = h.files.set l e := rfl

end Host

namespace Action

/-- The outcome and the machine as the action leaves it. -/
def on {α : Type} (action : Action α) (h : Host) : Except Failure α × Host :=
  StateT.run (ExceptT.run action) h

def ask {α : Type} (question : Host → Except Fault α) : Action α := do
  match question (← get) with
  | .ok a => return a
  | .error fault => throw (Failure.ofFault fault)

def record (e : Event) : Action Unit :=
  modify fun h => { h with log := h.log ++ [e] }

def put (l : Location) (e : Entry) : Action Unit :=
  modify fun h => h.put l e

/-- Opens a file for writing. From here on it is empty, whatever it held. -/
def openForWriting (path : String) : Action Location := do
  let l ← ask (·.writable path)
  put l (.file .empty)
  return l

/-- Makes a directory that may be there already. Only when something else is in the way does it
fail. -/
def ensureDirectory (path : String) : Action Unit := do
  let h ← get
  match h.vacant path with
  | .ok l => put l .directory
  | .error .nulInPath => throw .badValue
  | .error (.refused r) => if h.isDirectory path then return else throw (.refused r)

/-- Divides a path at its last step. A slash at the end belongs to no step. -/
def splitLast (path : String) : String × String :=
  let path := if (baseName path).isEmpty then dirName path else path
  (dirName path, baseName path)

/-- Makes a directory and those above it that are missing. At most `depth` of them are. -/
def ensureDirectoriesWithin : Nat → String → Action Unit
  | 0, path => ensureDirectory path
  | depth + 1, path => do
    let (above, last) := splitLast path
    let missing := !above.isEmpty && !last.isEmpty && ((← get).find? above).isNone
    if missing then
      tryCatch (ensureDirectoriesWithin depth above) fun failure =>
        match failure with
        | .refused ⟨.alreadyThere, _⟩ => pure ()
        | failure => throw failure
      -- with the directory above made, `.` is there
      if last = "." then return
    ensureDirectory path

/-- Makes a directory and those above it that are missing. -/
def ensureDirectories (path : String) : Action Unit :=
  ensureDirectoriesWithin path.length path

end Action
end Files
end DbImage
