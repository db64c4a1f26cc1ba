import DbImage.Calendar
import DbImage.Files.Path
import DbImage.Instances
import DbImage.Number.Shortest
import DbImage.Text.Loose

/-!
The values that a configuration or a caller may hand in before anything is checked: scalars, lists
and mappings of them. Keys are scalars, so no key holds a collection. A configuration gives the values
that a YAML text can spell, and their texts are loose ones; only a caller hands in a path.
-/

namespace DbImage

/-- A value without parts. -/
inductive Scalar (τ : Type := String) where
  | null
  | bool (b : Bool)
  | int (n : Int)
  | float (x : Number.Double)
  | text (s : τ)
  | bytes (b : ByteArray)
  | date (d : Date)
  | moment (m : Moment)
  deriving DecidableEq, Inhabited

/-- A value of any shape. A `pair` stands for an entry of an ordered list of entries, and is found
nowhere else; a `set` stands for keys without values. -/
inductive Datum (τ : Type := String) where
  | scalar (s : Scalar τ)
  | path (r : Files.Reference)
  | list (items : List (Datum τ))
  | set (items : List (Scalar τ))
  | pair (first second : Datum τ)
  | map (entries : List (Scalar τ × Datum τ))
  deriving Inhabited

/-- The entries of a mapping, in order. -/
abbrev Entries (τ : Type := String) := List (Scalar τ × Datum τ)

variable {τ : Type}

namespace Scalar

/-- Whole numbers and truth values are numbers, and so are floats that equal one. -/
def number? : Scalar τ → Option Int
  | .bool b => some (if b then 1 else 0)
  | .int n => some n
  | .float x => x.toInt?
  | _ => none

/-- Two keys name the same entry. Numbers are compared by value, whatever their form. -/
def sameKey [DecidableEq τ] (a b : Scalar τ) : Bool :=
  match a.number?, b.number? with
  | some m, some n => m == n
  | none, none =>
    match a, b with
    | .moment m, .moment n => m.same n
    | _, _ => decide (a = b)
  | _, _ => false

end Scalar

namespace Datum

def null : Datum τ := .scalar .null

def text (s : τ) : Datum τ := .scalar (.text s)

/-- The value under a text key. -/
def entry? [DecidableEq τ] [TextLike τ] (entries : Entries τ) (key : String) :
    Option (Datum τ) :=
  (entries.find? fun e => e.1 == .text (TextLike.ofString key)).map (·.2)

end Datum
end DbImage
