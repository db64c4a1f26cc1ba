import DbImage.Proofs.EnvFile.Values
import Mathlib.Algebra.Order.BigOperators.Group.List
import Mathlib.Algebra.Order.Group.Nat

/-!
# Where the values of an env file come from

A value may refer to names.  A name that an earlier assignment has leads on to that assignment's value,
and any other leads to the environment: these are the origins of the value.  Environments that agree on
its origins give a value alike (`given?_congr`), and each of its origins shows in it, since with a
longer text there the value is longer (`join_given?_ne_of_mem_origins`).
-/

namespace DbImage
namespace EnvFile

/-! ## References in a value -/

/-- A value as it stands in the file: characters, and references with their defaults. -/
inductive Part where
  | char (c : Char)
  | reference (name default : List Char)

namespace Part

def name? : Part → Option String
  | char _ => none
  | reference name _ => some (String.ofList name)

/-- The text that takes the place of the part. -/
def text (valueOf? : String → Option String) : Part → List Char
  | char c => [c]
  | reference name default => ((valueOf? (String.ofList name)).map String.toList).getD default

end Part

/-- The parts of a value. The first `skip` characters belong to a part already read. -/
def partsFrom : Nat → List Char → List Part
  | _, [] => []
  | skip + 1, _ :: rest => partsFrom skip rest
  | 0, c :: rest =>
    match c, rest with
    | '$', '{' :: inside =>
      match reference? inside with
      | some (name, default, width) => .reference name default :: partsFrom (width - 1) rest
      | none => .char c :: partsFrom 0 rest
    | _, _ => .char c :: partsFrom 0 rest

/-- The names that a value refers to. -/
def references (v : List Char) : List String :=
  (partsFrom 0 v).filterMap Part.name?

theorem fill_eq_flatMap (valueOf? : String → Option String) (skip : Nat) (v : List Char) :
    fill valueOf? skip v = (partsFrom skip v).flatMap (Part.text valueOf?) := by
  fun_induction fill valueOf? skip v with
  | case1 skip => simp [partsFrom]
  | case2 skip c rest ih => simpa [partsFrom] using ih
  | case3 inside name default width hfound ih =>
    rw [partsFrom, hfound, List.flatMap_cons, ← ih]
    rfl
  | case4 inside hnone ih =>
    rw [partsFrom, hnone, List.flatMap_cons, ← ih]
    rfl
  | case5 c rest hother ih =>
    rw [partsFrom, List.flatMap_cons, ← ih]
    · rfl
    · exact hother

/-- A value takes nothing from a look-up but what the names in it have. -/
theorem fill_congr {f g : String → Option String} {v : List Char}
    (h : ∀ m ∈ references v, f m = g m) : fill f 0 v = fill g 0 v := by
  rw [fill_eq_flatMap, fill_eq_flatMap]
  refine List.flatMap_congr fun p hp => ?_
  cases p with
  | char c => rfl
  | reference name default =>
    have hname : f (String.ofList name) = g (String.ofList name) :=
      h _ (List.mem_filterMap.mpr ⟨_, hp, rfl⟩)
    rw [Part.text, Part.text, hname]

/-! ## Origins -/

/-- The origins of what the assignments, which stand last first, give a name. -/
def originsFrom : List Assignment → String → List String
  | [], _ => []
  | a :: before, x =>
    if String.ofList a.1 = x then
      (references (a.2.getD [])).flatMap fun m =>
        if Assigned before m then originsFrom before m else [m]
    else originsFrom before x

/-- The variables of the environment that go into what the assignments give a name. -/
def origins (as : List Assignment) (x : String) : List String :=
  originsFrom as.reverse x

/-- The variables of the environment that go into what a later value sees of a name. -/
def seenOrigins (as : List Assignment) (m : String) : List String :=
  if Assigned as m then origins as m else [m]

theorem origins_append_singleton (as : List Assignment) (a : Assignment) (x : String) :
    origins (as ++ [a]) x =
      if String.ofList a.1 = x then (references (a.2.getD [])).flatMap (seenOrigins as)
      else origins as x := by
  have hreverse : ∀ m, Assigned as.reverse m ↔ Assigned as m := fun m => by simp [Assigned]
  rw [origins, List.reverse_append, List.reverse_singleton, List.singleton_append, originsFrom]
  simp only [hreverse]
  rfl

variable {e₁ e₂ : Bindings} {as : List Assignment} {x n : String}

theorem assigned_of_mem_origins (hn : n ∈ origins as x) : Assigned as x := by
  induction as using List.reverseRecOn with
  | nil => exact absurd hn List.not_mem_nil
  | append_singleton as a ih =>
    by_cases ha : String.ofList a.1 = x
    · exact ⟨a, List.mem_append_right as (List.mem_singleton.mpr rfl), ha⟩
    · rw [origins_append_singleton, if_neg ha] at hn
      obtain ⟨b, hb, hname⟩ := ih hn
      exact ⟨b, List.mem_append_left _ hb, hname⟩

/-- The induction is on the assignments from the first on: a value refers only to earlier ones. -/
theorem given?_congr (h : ∀ n ∈ origins as x, e₁.get? n = e₂.get? n) :
    given? e₁ as x = given? e₂ as x := by
  induction as using List.reverseRecOn generalizing x with
  | nil => rfl
  | append_singleton as a ih =>
    rw [origins_append_singleton] at h
    rw [given?_append_singleton, given?_append_singleton]
    by_cases ha : String.ofList a.1 = x
    · rw [if_pos ha] at h ⊢
      rw [if_pos ha]
      cases hv : a.2 with
      | none => rfl
      | some v =>
        rw [hv] at h
        have hseen : ∀ m ∈ references v, seen? e₁ as m = seen? e₂ as m := fun m hm => by
          have horigins : ∀ n ∈ seenOrigins as m, e₁.get? n = e₂.get? n := fun n hn =>
            h n (List.mem_flatMap.mpr ⟨m, hm, hn⟩)
          by_cases hassigned : Assigned as m
          · rw [seenOrigins, if_pos hassigned] at horigins
            rw [seen?_of_assigned hassigned, seen?_of_assigned hassigned, ih horigins]
          · rw [seenOrigins, if_neg hassigned] at horigins
            rw [seen?_of_not_assigned hassigned, seen?_of_not_assigned hassigned]
            exact horigins m (List.mem_singleton.mpr rfl)
        rw [Option.map_some, Option.map_some, fill_congr hseen]
    · rw [if_neg ha] at h ⊢
      rw [if_neg ha, ih h]

/-! ## Longer texts -/

/-- Both are set or neither is, and the second is no shorter, or longer if it has to be. -/
def Grows (longer : Prop) : Option String → Option String → Prop
  | none, none => ¬ longer
  | some v, some w => v.length ≤ w.length ∧ (longer → v.length < w.length)
  | _, _ => False

variable {f g : String → Option String} {longer : String → Prop}

theorem Part.length_text (h : ∀ m, Grows (longer m) (f m) (g m)) (p : Part) :
    (p.text f).length ≤ (p.text g).length ∧
      (∀ m, p.name? = some m → longer m → (p.text f).length < (p.text g).length) := by
  cases p with
  | char c => exact ⟨Nat.le_refl _, fun m hm => nomatch hm⟩
  | reference name default =>
    have hname := h (String.ofList name)
    rw [Part.text, Part.text]
    cases hf : f (String.ofList name) with
    | none =>
      cases hg : g (String.ofList name) with
      | none =>
        rw [hf, hg] at hname
        refine ⟨Nat.le_refl _, fun m hm hlonger => absurd hlonger ?_⟩
        exact Option.some.inj hm ▸ hname
      | some w =>
        rw [hf, hg] at hname
        exact hname.elim
    | some v =>
      cases hg : g (String.ofList name) with
      | none =>
        rw [hf, hg] at hname
        exact hname.elim
      | some w =>
        rw [hf, hg] at hname
        rw [Option.map_some, Option.map_some, Option.getD_some, Option.getD_some,
          String.length_toList, String.length_toList]
        exact ⟨hname.1, fun m hm hlonger => hname.2 (Option.some.inj hm ▸ hlonger)⟩

/-- A value grows with what it refers to. -/
theorem length_fill (h : ∀ m, Grows (longer m) (f m) (g m)) (v : List Char) :
    (fill f 0 v).length ≤ (fill g 0 v).length ∧
      (∀ m ∈ references v, longer m → (fill f 0 v).length < (fill g 0 v).length) := by
  rw [fill_eq_flatMap, fill_eq_flatMap, List.length_flatMap, List.length_flatMap]
  have hle : ∀ p ∈ partsFrom 0 v, (p.text f).length ≤ (p.text g).length := fun p _ =>
    (p.length_text h).1
  refine ⟨List.sum_le_sum hle, fun m hm hlonger => ?_⟩
  obtain ⟨p, hp, hname⟩ := List.mem_filterMap.mp hm
  exact List.sum_lt_sum _ _ hle ⟨p, hp, (p.length_text h).2 m hname hlonger⟩

theorem grows_seen? (henv : ∀ m, Grows (m = n) (e₁.get? m) (e₂.get? m))
    (hgiven : ∀ m, Grows (n ∈ origins as m) ((given? e₁ as m).map (·.getD ""))
      ((given? e₂ as m).map (·.getD ""))) (m : String) :
    Grows (n ∈ seenOrigins as m) (seen? e₁ as m) (seen? e₂ as m) := by
  by_cases hm : Assigned as m
  · rw [seen?_of_assigned hm, seen?_of_assigned hm, seenOrigins, if_pos hm]
    exact hgiven m
  · rw [seen?_of_not_assigned hm, seen?_of_not_assigned hm, seenOrigins, if_neg hm,
      List.mem_singleton, eq_comm]
    exact henv m

/-- With a longer text for one variable of the environment, and no shorter ones for the others, what
comes from that variable is longer and nothing is shorter. -/
theorem grows_given? (henv : ∀ m, Grows (m = n) (e₁.get? m) (e₂.get? m)) (as : List Assignment)
    (x : String) :
    Grows (n ∈ origins as x) ((given? e₁ as x).map (·.getD ""))
      ((given? e₂ as x).map (·.getD "")) := by
  induction as using List.reverseRecOn generalizing x with
  | nil => exact List.not_mem_nil
  | append_singleton as a ih =>
    rw [origins_append_singleton, given?_append_singleton, given?_append_singleton]
    by_cases ha : String.ofList a.1 = x
    · rw [if_pos ha, if_pos ha, if_pos ha]
      cases hv : a.2 with
      -- a name without a value counts as empty on both sides and has no origins
      | none => exact ⟨Nat.le_refl _, fun h => absurd h List.not_mem_nil⟩
      | some v =>
        obtain ⟨hle, hlt⟩ := length_fill (grows_seen? henv ih) v
        rw [← String.length_ofList, ← String.length_ofList] at hle
        refine ⟨hle, fun hn => ?_⟩
        obtain ⟨m, hm, hn⟩ := List.mem_flatMap.mp hn
        have hlength := hlt m hm hn
        rwa [← String.length_ofList, ← String.length_ofList] at hlength
    · rw [if_neg ha, if_neg ha, if_neg ha]
      exact ih x

/-- No name has an origin that does not show. -/
theorem join_given?_ne_of_mem_origins (hn : n ∈ origins as x) :
    (given? [(n, "")] as x).join ≠ (given? [(n, "x")] as x).join := by
  have henv : ∀ m, Grows (m = n) (Bindings.get? [(n, "")] m) (Bindings.get? [(n, "x")] m) := by
    intro m
    rw [Bindings.get?_cons, Bindings.get?_cons]
    by_cases hm : n = m
    · rw [if_pos hm, if_pos hm]
      exact ⟨Nat.zero_le _, fun _ => (by decide : "".length < "x".length)⟩
    · rw [if_neg hm, if_neg hm]
      exact Ne.symm hm
  have hgrows := grows_given? henv as x
  cases h₁ : given? [(n, "")] as x with
  | none =>
    cases h₂ : given? [(n, "x")] as x with
    | none =>
      rw [h₁, h₂] at hgrows
      exact absurd hn hgrows
    | some w? =>
      rw [h₁, h₂] at hgrows
      exact hgrows.elim
  | some v? =>
    cases h₂ : given? [(n, "x")] as x with
    | none =>
      rw [h₁, h₂] at hgrows
      exact hgrows.elim
    | some w? =>
      rw [h₁, h₂] at hgrows
      rintro (rfl : v? = w?)
      exact Nat.lt_irrefl _ (hgrows.2 hn)

end EnvFile
end DbImage
