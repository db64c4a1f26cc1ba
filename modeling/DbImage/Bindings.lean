/-!
Variables: names bound to text, each name once, in the order in which the names were first bound.
`get?_put` says what a new binding does to every look-up.
-/

namespace DbImage

/-- Names and their values, in order. -/
abbrev Bindings (τ : Type := String) := List (String × τ)

namespace Bindings

variable {τ : Type}

/-- The value of a name: the first binding counts. -/
def get? (b : Bindings τ) (name : String) : Option τ :=
  (b.find? (·.1 == name)).map (·.2)

def names (b : Bindings τ) : List String :=
  b.map (·.1)

/-- Binds a name. A name that is already bound keeps its position. -/
def put (name : String) (value : τ) : Bindings τ → Bindings τ
  | [] => [(name, value)]
  | (n, v) :: rest => if n = name then (n, value) :: rest else (n, v) :: put name value rest

/-- Binds pairs one after the other, so of a repeated name the last value counts. -/
def overlay (b : Bindings τ) (pairs : List (String × τ)) : Bindings τ :=
  pairs.foldl (fun b p => put p.1 p.2 b) b

def ofPairs (pairs : List (String × τ)) : Bindings τ :=
  overlay [] pairs

/-- In code point order of the names. -/
def sorted (b : Bindings τ) : Bindings τ :=
  b.mergeSort fun p q => decide (p.1 ≤ q.1)

@[simp]
theorem get?_nil (name : String) : get? ([] : Bindings τ) name = none := rfl

@[simp]
theorem get?_cons (p : String × τ) (b : Bindings τ) (name : String) :
    get? (p :: b) name = if p.1 = name then some p.2 else get? b name := by
  by_cases h : p.1 = name <;> simp [get?, h]

theorem get?_put (name : String) (value : τ) (other : String) (b : Bindings τ) :
    get? (put name value b) other = if name = other then some value else get? b other := by
  induction b with
  | nil => simp [put]
  | cons p rest ih =>
    obtain ⟨n, v⟩ := p
    unfold put
    split
    · rename_i h; subst h; simp; grind
    · simp [ih]; grind

/-- Binding a name anew adds it at most at the end. -/
theorem names_put (name : String) (value : τ) (b : Bindings τ) :
    names (put name value b) = if name ∈ names b then names b else names b ++ [name] := by
  induction b with
  | nil => simp [put, names]
  | cons p rest ih =>
    obtain ⟨n, v⟩ := p
    unfold put
    split
    · rename_i h; simp [names, h]
    · rename_i h
      simp only [names, List.map_cons] at ih ⊢
      rw [ih]
      grind

theorem overlay_cons (b : Bindings τ) (p : String × τ) (ps : List (String × τ)) :
    overlay b (p :: ps) = overlay (put p.1 p.2 b) ps := rfl

end Bindings
end DbImage
