import DbImage.Text.Loose

/-!
Paths as text: steps divided by slashes. The operations here look at the text alone and never at
files. A `Reference` is a path in normal form, the form in which a staged file names its source.
-/

namespace DbImage
namespace Files

/-- The pieces between the slashes; some may be empty. -/
def splitSlash : List Char → List (List Char)
  | [] => [[]]
  | c :: rest =>
    if c = '/' then [] :: splitSlash rest
    else
      match splitSlash rest with
      | [] => [[c]]
      | step :: steps => (c :: step) :: steps

theorem splitSlash_ne_nil (s : List Char) : splitSlash s ≠ [] := by
  cases s with
  | nil => simp [splitSlash]
  | cons c rest =>
    unfold splitSlash
    split
    · simp
    · split <;> simp

theorem slash_not_mem_of_mem_splitSlash {s step : List Char} (h : step ∈ splitSlash s) :
    '/' ∉ step := by
  induction s generalizing step with
  | nil => simp_all [splitSlash]
  | cons c rest ih =>
    unfold splitSlash at h
    split at h
    · rcases List.mem_cons.1 h with rfl | h
      · simp
      · exact ih h
    · rename_i hc
      have hne : ¬ '/' = c := fun e => hc e.symm
      split at h
      · simp_all
      · rename_i first others he
        rcases List.mem_cons.1 h with rfl | h
        · have : '/' ∉ first := ih (by simp [he])
          simp [hne, this]
        · exact ih (by simp [he, h])

/-- The pieces that name something. -/
def steps (path : String) : List String :=
  ((splitSlash path.toList).filter (!·.isEmpty)).map String.ofList

def startsAtRoot (path : String) : Bool :=
  path.toList.head? == some '/'

def endsInSlash (path : String) : Bool :=
  path.toList.getLast? == some '/'

/-- The second path seen from the first. A second path that starts at the root stands alone. -/
def join (base path : String) : String :=
  if startsAtRoot path then path
  else if base.isEmpty || endsInSlash base then base ++ path
  else base ++ "/" ++ path

def baseName (path : String) : String :=
  String.ofList (path.toList.reverse.takeWhile (· ≠ '/')).reverse

/-- What precedes the last step, without the slashes between the two. The slashes of the root
stay. -/
def dirName (path : String) : String :=
  let head := path.toList.reverse.dropWhile (· ≠ '/')
  let kept := head.dropWhile (· = '/')
  String.ofList (if kept.isEmpty then head else kept).reverse

/-- How a path in normal form starts. Exactly two slashes are kept apart from one. -/
inductive Root where
  | relative
  | single
  | double
  deriving DecidableEq, Repr

namespace Root

def of (path : String) : Root :=
  match path.toList with
  | '/' :: '/' :: '/' :: _ => .single
  | '/' :: '/' :: _ => .double
  | '/' :: _ => .single
  | _ => .relative

def text : Root → String
  | .relative => ""
  | .single => "/"
  | .double => "//"

end Root

/-- Takes one more step, where `..` cancels the step before it. At the root there is nothing to
cancel; before a relative path it stays. The steps are held last first. -/
def lexicalStep (root : Root) (back : List String) (step : String) : List String :=
  if step = "." then back
  else if step = ".." then
    match back with
    | [] => if root = .relative then [step] else []
    | last :: rest => if last = ".." then step :: back else rest
  else step :: back

/-- The path with `.`, `..` and repeated slashes resolved by looking at the text alone. -/
def lexicalNormal (path : String) : String :=
  let root := Root.of path
  let text := root.text ++ "/".intercalate ((steps path).foldl (lexicalStep root) []).reverse
  if text.isEmpty then "." else text

/-- The path from the root that a path seen from `directory` names. -/
def absolute (directory path : String) : String :=
  lexicalNormal (join directory path)

/-- A path in normal form: no empty step and no step `.`, while `..` is kept, since what it names is
known only where the files are. -/
structure Reference (τ : Type := String) where
  root : Root
  steps : List τ
  deriving DecidableEq, Repr

namespace Reference

open TextLike (append intercalate ofString)

variable {τ σ : Type}

def ofText (path : String) : Reference :=
  ⟨Root.of path, (Files.steps path).filter (· ≠ ".")⟩

/-- A path without steps is the current directory. -/
def text [TextLike τ] (r : Reference τ) : τ :=
  if r.root = .relative ∧ r.steps = [] then ofString "."
  else append (ofString r.root.text) (intercalate (ofString "/") r.steps)

/-- `path` seen from `base`. -/
def under (base path : Reference τ) : Reference τ :=
  if path.root = .relative then ⟨base.root, base.steps ++ path.steps⟩ else path

/-- The path with its steps in another sort of text. -/
def map (f : τ → σ) (r : Reference τ) : Reference σ := ⟨r.root, r.steps.map f⟩

/-- The path in characters, if there is nothing else in it. -/
def toString? [TextLike τ] (r : Reference τ) : Option Reference :=
  (r.steps.mapM TextLike.toString?).map (⟨r.root, ·⟩)

theorem root_of_toString? [TextLike τ] {r : Reference τ} {s : Reference} (h : r.toString? = some s) :
    s.root = r.root := by
  obtain ⟨ss, -, rfl⟩ := Option.map_eq_some_iff.mp h
  rfl

/-- The text of a path in characters. -/
theorem text_string (r : Reference) :
    r.text = if r.root = .relative ∧ r.steps = [] then "." else r.root.text ++ "/".intercalate r.steps :=
  rfl

@[simp]
theorem toString?_string (r : Reference) : r.toString? = some r := by
  have hsteps : r.steps.mapM some = some r.steps :=
    List.mapM_pure.trans (congrArg some (List.map_id r.steps))
  rw [toString?]
  exact congrArg (Option.map (Reference.mk r.root)) hsteps

theorem under_of_absolute {base path : Reference τ} (h : path.root ≠ .relative) :
    under base path = path := by
  simp [under, h]

end Reference

end Files
end DbImage
