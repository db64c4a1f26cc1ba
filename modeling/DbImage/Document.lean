import DbImage.Number.Double
import DbImage.Text.Loose

/-!
Plain documents: what a description looks like once it is data, ready to be written as JSON or YAML.
-/

namespace DbImage

/-- A value made of text, numbers, lists and records. The fields of a record keep their order. -/
inductive Document (τ : Type := String) where
  | text (s : τ)
  | integer (n : Int)
  | number (x : Number.Double)
  | list (items : List (Document τ))
  | record (fields : List (String × Document τ))

namespace Document

variable {τ : Type}

/-- A text of characters alone. -/
def string [TextLike τ] (s : String) : Document τ :=
  .text (TextLike.ofString s)

def texts [TextLike τ] (ss : List String) : Document τ :=
  .list (ss.map .string)

/-- Adds a field if it has a value. -/
def optional {α : Type} (name : String) (value? : Option α) (write : α → Document τ) :
    List (String × Document τ) :=
  match value? with
  | some a => [(name, write a)]
  | none => []

end Document
end DbImage
