import DbImage.Files.Host
import DbImage.Image.Basic

/-!
The arguments of the command line. They are read into settings first, in the order in which they are
given; each setting is then checked in that order, and of a repeated one the last value counts. Asking
for help comes before everything but the reading itself. A word that is no setting is let stand until
the settings are checked.
-/

namespace DbImage
namespace Command

/-- What the command line can be asked to do. -/
inductive Verb where
  | describe
  | convert
  deriving DecidableEq, Repr

inductive Setting where
  | help
  | image
  | config
  | envFile
  | dbName
  | user
  | password
  | hostAuth
  | fsync
  | initSql
  | format
  | out
  | service
  deriving DecidableEq, Repr

namespace Verb

def word : Verb → String
  | describe => "describe"
  | convert => "convert"

def ofWord? (word : String) : Option Verb :=
  [describe, convert].find? (·.word == word)

def settings : Verb → List Setting
  | describe => shared ++ [.format]
  | convert => shared ++ [.out, .service]
where
  shared : List Setting :=
    [.help, .image, .config, .envFile, .dbName, .user, .password, .hostAuth, .fsync, .initSql]

end Verb

namespace Setting

/-- The name after two dashes. -/
def long : Setting → String
  | help => "help"
  | image => "image"
  | config => "config"
  | envFile => "env-file"
  | dbName => "db-name"
  | user => "user"
  | password => "password"
  | hostAuth => "host-auth"
  | fsync => "fsync"
  | initSql => "init-sql"
  | format => "format"
  | out => "out"
  | service => "service"

/-- The letter after one dash. -/
def short? : Setting → Option Char
  | image => some 'i'
  | config => some 'c'
  | format => some 'f'
  | out => some 'o'
  | service => some 's'
  | _ => none

/-- Flags are set by being named; every other setting takes a value. -/
def isFlag : Setting → Bool
  | help | hostAuth | fsync => true
  | _ => false

/-- The words that a setting is limited to. -/
def choices? : Setting → Option (List String)
  | image => some ImageKind.words
  | format => some ["json", "yaml"]
  | _ => none

/-- The value names a file, so it must not name a directory. -/
def isFile : Setting → Bool
  | config | envFile | initSql => true
  | _ => false

end Setting

/-- A setting with the value it is given; a flag's value is empty. -/
abbrev Given := Setting × String

inductive Shape where
  /-- `--`, after which nothing is a setting. -/
  | divider
  /-- A setting by its long name, perhaps with a value attached. -/
  | long (name : String) (value? : Option String)
  /-- Settings by their letters. -/
  | letters (cs : List Char)
  | word (s : String)
  deriving DecidableEq, Repr

def shapeOf (arg : String) : Shape :=
  match arg.toList with
  | ['-', '-'] => .divider
  | '-' :: '-' :: rest =>
    match rest.dropWhile (· ≠ '=') with
    | _ :: value => .long (String.ofList (rest.takeWhile (· ≠ '='))) (String.ofList value)
    | [] => .long (String.ofList rest) none
  | '-' :: c :: rest => .letters (c :: rest)
  | _ => .word arg

/-- What letters after one dash ask for: flags, and at the end perhaps a setting that takes a value.
What follows its letter is the value; if nothing does, the value is the next argument. -/
def readLetters (settings : List Setting) :
    List Char → Option (List Given × Option (Setting × Option String))
  | [] => some ([], none)
  | c :: rest => do
    let s ← settings.find? (·.short? == some c)
    if s.isFlag then
      let (given, last?) ← readLetters settings rest
      return ((s, "") :: given, last?)
    else return ([], some (s, if rest.isEmpty then none else some (String.ofList rest)))

/-- Reads the arguments of a verb into settings and words that are none. There is no reading if a
setting is unknown or lacks a value, or if a flag has one. -/
def readSettings (settings : List Setting) : List String → Option (List Given × List String)
  | [] => some ([], [])
  | arg :: rest =>
    match shapeOf arg with
    | .divider => some ([], rest)
    | .word s => (readSettings settings rest).map (Prod.map id (s :: ·))
    | .long name value? =>
      match settings.find? (·.long == name) with
      | none => none
      | some s =>
        match s.isFlag, value?, rest with
        | true, none, rest => (readSettings settings rest).map (Prod.map ((s, "") :: ·) id)
        | true, some _, _ => none
        | false, some value, rest => (readSettings settings rest).map (Prod.map ((s, value) :: ·) id)
        | false, none, value :: rest =>
          (readSettings settings rest).map (Prod.map ((s, value) :: ·) id)
        | false, none, [] => none
    | .letters cs =>
      match readLetters settings cs, rest with
      | none, _ => none
      | some (given, none), rest => (readSettings settings rest).map (Prod.map (given ++ ·) id)
      | some (given, some (s, some value)), rest =>
        (readSettings settings rest).map (Prod.map (given ++ (s, value) :: ·) id)
      | some (given, some (s, none)), value :: rest =>
        (readSettings settings rest).map (Prod.map (given ++ (s, value) :: ·) id)
      | some (_, some (_, none)), [] => none

/-- What stands before the verb, and the verb with all that follows it. -/
structure Front where
  verbose : Bool
  help : Bool
  rest : List String

/-- Reads flags up to the first word, or past a divider. There is no reading if one is unknown or has
a value. -/
def readFront : List String → Option Front
  | [] => some ⟨false, false, []⟩
  | arg :: rest =>
    match shapeOf arg with
    | .divider => some ⟨false, false, rest⟩
    | .word _ => some ⟨false, false, arg :: rest⟩
    | .long name value? =>
      if value?.isSome then none
      else if name = "verbose" then (readFront rest).map ({ · with verbose := true })
      else if name = "help" then (readFront rest).map ({ · with help := true })
      else none
    | .letters cs =>
      if cs.all (· == 'v') then (readFront rest).map ({ · with verbose := true }) else none

structure Request where
  verbose : Bool
  verb : Verb
  given : List Given
  /-- Words that are no settings. A request that has any is refused. -/
  words : List String
  deriving DecidableEq, Repr

/-- What the command line asks for. -/
inductive Asked where
  /-- Nothing, since it cannot be read. -/
  | misuse
  | help
  | request (r : Request)
  deriving DecidableEq, Repr

/-- What the arguments of a verb ask for. -/
def Verb.asked (verb : Verb) (verbose : Bool) (args : List String) : Asked :=
  match readSettings verb.settings args with
  | none => .misuse
  | some (given, words) =>
    if given.any (·.1 == .help) then .help else .request ⟨verbose, verb, given, words⟩

/-- Where no verb stands in its place, what stands there is read as flags once more. This comes to
something only behind a divider. -/
def asked (args : List String) : Asked :=
  match readFront args with
  | none => .misuse
  | some front =>
    if front.help then .help
    else
      match front.rest with
      | [] => .misuse
      | word :: args =>
        match Verb.ofWord? word with
        | some verb => verb.asked front.verbose args
        | none => if (readFront (word :: args)).any (·.help) then .help else .misuse

def Request.ofArguments (args : List String) : Option Request :=
  match asked args with
  | .request r => some r
  | _ => none

namespace Request

def values (r : Request) (s : Setting) : List String :=
  (r.given.filter (·.1 == s)).map (·.2)

/-- The value that counts. -/
def value? (r : Request) (s : Setting) : Option String :=
  (r.values s).getLast?

/-- The same as a text for an image. -/
def text? (r : Request) (s : Setting) : Option LooseText :=
  (r.value? s).map .ofString

def has (r : Request) (s : Setting) : Bool :=
  r.given.any (·.1 == s)

/-- The settings in the order in which each is first given. -/
def order (r : Request) : List Setting :=
  r.given.foldl (fun seen g => if g.1 ∈ seen then seen else seen ++ [g.1]) []

/-- Of most settings only the last value is looked at. -/
def lookedAt (r : Request) (s : Setting) : List String :=
  if s = .initSql then r.values s else (r.value? s).toList

end Request

/-- What is wrong with a request. -/
inductive Misuse where
  /-- A value is none of the words allowed, or a directory where a file is wanted, or a word is left
  over. -/
  | refused
  /-- A value cannot be looked up at all. -/
  | failed (failure : Failure)
  deriving DecidableEq

def checkValue (h : Files.Host) (s : Setting) (value : String) : Except Misuse Unit :=
  if s.isFile && Files.Host.holdsNul value then .error (.failed .badValue)
  else if s.isFile && h.isDirectory value then .error .refused
  else if s.choices?.all (·.contains value) then .ok ()
  else .error .refused

def checkValues (h : Files.Host) : List Given → Except Misuse Unit
  | [] => .ok ()
  | (s, value) :: rest =>
    match checkValue h s value with
    | .ok () => checkValues h rest
    | .error m => .error m

/-- Checks the values that count, setting by setting, and then that no word is left over. -/
def Request.check (r : Request) (h : Files.Host) : Except Misuse Unit := do
  checkValues h (r.order.flatMap fun s => (r.lookedAt s).map fun v => (s, v))
  if r.words.isEmpty then return () else throw .refused

end Command
end DbImage
