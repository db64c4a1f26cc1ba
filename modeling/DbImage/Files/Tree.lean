import DbImage.Instances

/-!
A tree of files: what stands at each place. Places are lists of names from the root down, so two
paths lead to one file exactly when they lead to one place. `get?_set` is the whole of what a write
does.
-/

namespace DbImage
namespace Files

/-- An absolute place: the names from the root down. -/
abbrev Location := List String

inductive Entry where
  | directory
  | file (content : ByteArray)
  deriving DecidableEq

/-- What stands where. The root is always a directory and needs no entry. -/
structure Tree where
  entries : List (Location × Entry)

namespace Tree

def empty : Tree := ⟨[]⟩

def find (l : Location) : List (Location × Entry) → Option Entry
  | [] => none
  | (l', e) :: rest => if l' = l then some e else find l rest

def get? (t : Tree) (l : Location) : Option Entry :=
  if l = [] then some .directory else find l t.entries

/-- Puts an entry at a place of a list of entries, instead of the one that was there. -/
def put (l : Location) (e : Entry) : List (Location × Entry) → List (Location × Entry)
  | [] => [(l, e)]
  | (l', e') :: rest => if l' = l then (l', e) :: rest else (l', e') :: put l e rest

def set (t : Tree) (l : Location) (e : Entry) : Tree :=
  ⟨put l e t.entries⟩

theorem find_put (l k : Location) (e : Entry) (es : List (Location × Entry)) :
    find k (put l e es) = if k = l then some e else find k es := by
  induction es with
  | nil => grind [put, find]
  | cons p rest ih => grind [put, find]

/-- A write changes what stands at its place and nothing else. The root stays a directory. -/
theorem get?_set (t : Tree) (l k : Location) (e : Entry) (h : l ≠ []) :
    (t.set l e).get? k = if k = l then some e else t.get? k := by
  unfold get? set
  by_cases hk : k = []
  · subst hk; simp [Ne.symm h]
  · simp [hk, find_put]

theorem get?_set_self (t : Tree) {l : Location} (e : Entry) (h : l ≠ []) :
    (t.set l e).get? l = some e := by
  simp [get?_set t l l e h]

theorem get?_set_of_ne (t : Tree) {l k : Location} (e : Entry) (h : k ≠ l) :
    (t.set l e).get? k = t.get? k := by
  by_cases hl : l = []
  · subst hl
    simp [get?, set, find_put, h]
  · simp [get?_set t l k e hl, h]

theorem set_set (t : Tree) (l : Location) (a b : Entry) : (t.set l a).set l b = t.set l b := by
  have : ∀ es, put l b (put l a es) = put l b es := by
    intro es
    induction es with
    | nil => simp [put]
    | cons p rest ih =>
      obtain ⟨l', e'⟩ := p
      by_cases h : l' = l <;> simp [put, h, ih]
  simp [set, this]

/-- The entries below a directory, each with the steps that lead to it from there. -/
def below (t : Tree) (l : Location) : List (Location × Entry) :=
  t.entries.filterMap fun (k, e) =>
    match l.isPrefixOf? k with
    | some rest => if rest = [] then none else some (rest, e)
    | none => none

end Tree
end Files
end DbImage
