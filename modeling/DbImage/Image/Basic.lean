import DbImage.Image.Postgres

/-!
The images there are. A PostGIS image wraps a Postgres image and differs from it in identity alone;
any other implementation of the contract takes part as a `custom` image, which equals itself and no
other.
-/

namespace DbImage

/-- An image. A custom one carries a serial number, by which two of them are told apart. -/
inductive Image (τ : Type := String) where
  | postgres (p : Postgres τ)
  | postgis (p : Postgres τ)
  | custom (serial : Nat) (c : Contract τ)
  deriving DecidableEq

/-- The kinds of image that can be asked for by name. -/
inductive ImageKind where
  | postgis
  | postgres
  deriving DecidableEq, Repr

namespace ImageKind

def all : List ImageKind := [postgis, postgres]

/-- The name a kind is asked for by. -/
def word : ImageKind → String
  | postgis => "postgis"
  | postgres => "postgres"

def className : ImageKind → String
  | postgis => "Postgis"
  | postgres => "Postgres"

def words : List String := all.map word

def ofWord? (word : String) : Option ImageKind :=
  all.find? (·.word == word)

/-- The kind of that name; an unknown name is answered with the known ones. -/
def ofWord (word : LooseText) : Except Failure ImageKind :=
  match word.toString?.bind ofWord? with
  | some k => .ok k
  | none => .error (.config (.unknownImage word words))

theorem ofWord?_word (k : ImageKind) : ofWord? k.word = some k := by
  cases k <;> decide

/-- The image of this kind around a Postgres image. -/
def image {τ : Type} : ImageKind → Postgres τ → Image τ
  | postgis => .postgis
  | postgres => .postgres

end ImageKind

namespace Postgis

def name : String := "postgis/postgis"

def tag : String := "17-3.5"

/-- Everything but the identity comes from the Postgres image inside. -/
def contract {τ : Type} (p : Postgres τ) : Contract τ :=
  { p.contract with name := name, tag := tag }

end Postgis

namespace Image

variable {τ : Type}

def contract : Image τ → Contract τ
  | postgres p => p.contract
  | postgis p => Postgis.contract p
  | custom _ c => c

def className : Image τ → String
  | postgres _ => "Postgres"
  | postgis _ => "Postgis"
  | custom _ _ => "Custom"

/-- Carries out a builder call on the Postgres image inside. A custom image has no builders. -/
def call [TextLike τ] (i : Image τ) (c : BuilderCall τ) : Except Failure (Image τ) :=
  match i with
  | postgres p => (p.call c).map postgres
  | postgis p => (p.call c).map postgis
  | custom _ _ => .error .noSuchPart

/-- Carries out calls in order, until one is refused. -/
def calls [TextLike τ] (i : Image τ) : List (BuilderCall τ) → Except Failure (Image τ)
  | [] => .ok i
  | c :: rest =>
    match i.call c with
    | .ok j => calls j rest
    | .error e => .error e

def inner : Image τ → Except Failure (Image τ)
  | postgis p => .ok (postgres p)
  | _ => .error .noSuchPart

/-- What an image is filed under when images are collected: the Postgres image inside, or the serial
number. -/
inductive FilingKey (τ : Type := String) where
  | server (p : Postgres τ)
  | serial (n : Nat)
  deriving DecidableEq

/-- Equal images are filed under one key. A PostGIS image and the image inside share one as well. -/
def filingKey : Image τ → FilingKey τ
  | postgres p => .server p
  | postgis p => .server p
  | custom n _ => .serial n

variable [TextLike τ]

@[simp]
theorem calls_nil (i : Image τ) : i.calls [] = .ok i := rfl

theorem calls_append (i : Image τ) (cs ds : List (BuilderCall τ)) :
    i.calls (cs ++ ds) = (i.calls cs).bind (·.calls ds) := by
  induction cs generalizing i with
  | nil => rfl
  | cons c rest ih =>
    simp only [List.cons_append, calls]
    cases i.call c with
    | ok j => exact ih j
    | error e => rfl

end Image
end DbImage
