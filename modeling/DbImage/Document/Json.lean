import DbImage.Document
import DbImage.Number.Shortest
import DbImage.Text.JsonString

/-!
Documents as JSON, in ASCII, one item to a line.
-/

namespace DbImage
namespace Document

/-- Numbers that are not finite have words of their own. -/
def jsonNumber (x : Number.Double) : String :=
  match x with
  | .nan => "NaN"
  | .infinite negative => if negative then "-Infinity" else "Infinity"
  | x => x.toText

def indentation (n : Nat) : String :=
  String.ofList (List.replicate n ' ')

/-- Items between brackets, each on a line of its own, two columns further in. -/
def bracketed (openMark closeMark : String) (indent : Nat) (items : List String) : String :=
  if items.isEmpty then openMark ++ closeMark
  else
    let inner := "\n" ++ indentation (indent + 2)
    openMark ++ inner ++ ("," ++ inner).intercalate items ++ "\n" ++ indentation indent ++ closeMark

variable {τ : Type} [TextLike τ]

mutual

/-- The text of a document whose first line is indented by `indent`. -/
def jsonAt (indent : Nat) : Document τ → String
  | text s => Text.jsonString s
  | integer n => toString n
  | number x => jsonNumber x
  | list items => bracketed "[" "]" indent (jsonItems (indent + 2) items)
  | record fields => bracketed "\x7b" "\x7d" indent (jsonFields (indent + 2) fields)

def jsonItems (indent : Nat) : List (Document τ) → List String
  | [] => []
  | d :: rest => jsonAt indent d :: jsonItems indent rest

def jsonFields (indent : Nat) : List (String × Document τ) → List String
  | [] => []
  | field :: rest => jsonField indent field :: jsonFields indent rest

def jsonField (indent : Nat) : String × Document τ → String
  | (name, d) => Text.jsonString name ++ ": " ++ jsonAt indent d

end

def toJson (d : Document τ) : String := jsonAt 0 d

end Document
end DbImage
