import DbImage.EnvFile
import DbImage.Proofs.Bindings
import Mathlib.Data.List.Dedup
import Mathlib.Data.List.Induction

/-!
# What an env file gives

The assignments of a file are carried out one after the other.  What they give a name is decided by
the last one that has the name, and its value sees the assignments before it and, where they have
nothing to say, the environment: `given?_append_singleton`.  Which names come to be bound does not
depend on the environment.
-/

namespace DbImage
namespace EnvFile

/-- A name and, after an equals sign, a value in which references may stand. -/
abbrev Assignment := List Char × Option (List Char)

/-- What assignments give a name: nothing, the name without a value, or a value. -/
def given? (environment : Bindings) (as : List Assignment) (name : String) : Option (Option String) :=
  lookup? (resolve environment [] as) name

/-- What a value that comes after the assignments sees of a name. -/
def seen? (environment : Bindings) (as : List Assignment) (name : String) : Option String :=
  ((given? environment as name).map (·.getD "")).or (environment.get? name)

/-- Some assignment has the name. -/
def Assigned (as : List Assignment) (name : String) : Prop :=
  ∃ a ∈ as, String.ofList a.1 = name

instance (as : List Assignment) (name : String) : Decidable (Assigned as name) :=
  inferInstanceAs (Decidable (∃ a ∈ as, String.ofList a.1 = name))

variable {environment : Bindings} {as : List Assignment} {name : String}

/-! ## The last assignment of a name -/

theorem lookup?_append_singleton (bound : List (String × Option String)) (p : String × Option String)
    (name : String) :
    lookup? (bound ++ [p]) name = if p.1 = name then some p.2 else lookup? bound name := by
  unfold lookup?
  rw [List.reverse_append, List.reverse_singleton, List.singleton_append, List.find?_cons]
  by_cases h : p.1 = name
  · rw [if_pos h, beq_iff_eq.mpr h]
    rfl
  · rw [if_neg h, beq_eq_false_iff_ne.mpr h]

theorem resolve_append (environment : Bindings) (bound : List (String × Option String))
    (as bs : List Assignment) :
    resolve environment bound (as ++ bs) = resolve environment (resolve environment bound as) bs := by
  induction as generalizing bound with
  | nil => rfl
  | cons a as ih => exact ih _

@[simp]
theorem given?_nil (environment : Bindings) (name : String) : given? environment [] name = none := rfl

theorem resolve_singleton (environment : Bindings) (bound : List (String × Option String))
    (a : Assignment) :
    resolve environment bound [a] = bound ++ [(String.ofList a.1, a.2.map fun v => String.ofList
      (fill (fun n => ((lookup? bound n).map (·.getD "")).or (environment.get? n)) 0 v))] := by
  obtain ⟨name, value?⟩ := a
  rw [resolve, resolve]
  refine congrArg (fun f => bound ++ [(String.ofList name, value?.map fun v =>
    String.ofList (fill f 0 v))]) (funext fun n => ?_)
  cases lookup? bound n <;> rfl

/-- One more assignment decides what its own name is given and leaves all others as they are. -/
theorem given?_append_singleton (environment : Bindings) (as : List Assignment) (a : Assignment)
    (name : String) :
    given? environment (as ++ [a]) name =
      if String.ofList a.1 = name then
        some (a.2.map fun v => String.ofList (fill (seen? environment as) 0 v))
      else given? environment as name := by
  rw [given?, resolve_append, resolve_singleton, lookup?_append_singleton]
  rfl

theorem given?_append_of_not_assigned (as : List Assignment) {after : List Assignment}
    (h : ¬ Assigned after name) : given? environment (as ++ after) name = given? environment as name := by
  induction after using List.reverseRecOn with
  | nil => rw [List.append_nil]
  | append_singleton after a ih =>
    have hafter : ¬ Assigned after name := fun ⟨b, hb, hname⟩ =>
      h ⟨b, List.mem_append_left _ hb, hname⟩
    have ha : String.ofList a.1 ≠ name := fun hname =>
      h ⟨a, List.mem_append_right _ (List.mem_singleton.mpr rfl), hname⟩
    rw [← List.append_assoc, given?_append_singleton, if_neg ha, ih hafter]

theorem given?_of_not_assigned (h : ¬ Assigned as name) : given? environment as name = none :=
  given?_append_of_not_assigned [] h

theorem isSome_given?_iff : (given? environment as name).isSome = true ↔ Assigned as name := by
  induction as using List.reverseRecOn with
  | nil => simp [Assigned]
  | append_singleton as a ih =>
    have hassigned : Assigned (as ++ [a]) name ↔ Assigned as name ∨ String.ofList a.1 = name := by
      simp [Assigned, or_and_right, exists_or]
    rw [given?_append_singleton, hassigned]
    by_cases ha : String.ofList a.1 = name
    · rw [if_pos ha]
      exact iff_of_true rfl (Or.inr ha)
    · rw [if_neg ha, ih, or_iff_left ha]

theorem seen?_of_assigned (h : Assigned as name) :
    seen? environment as name = (given? environment as name).map (·.getD "") := by
  have hsome : (given? environment as name).isSome = true := isSome_given?_iff.mpr h
  obtain ⟨value?, hvalue⟩ := Option.isSome_iff_exists.mp hsome
  rw [seen?, hvalue]
  rfl

theorem seen?_of_not_assigned (h : ¬ Assigned as name) :
    seen? environment as name = environment.get? name := by
  rw [seen?, given?_of_not_assigned h]
  rfl

/-! ## The variables -/

/-- Each name once, in the order in which they first come. -/
def firstNames (ns : List String) : List String :=
  ns.foldl (fun found n => if n ∈ found then found else found ++ [n]) []

theorem firstNames_eq (ns : List String) : firstNames ns = ns.reverse.dedup.reverse := by
  induction ns using List.reverseRecOn with
  | nil => rfl
  | append_singleton ns n ih =>
    have hlast : firstNames (ns ++ [n]) =
        if n ∈ firstNames ns then firstNames ns else firstNames ns ++ [n] := by
      rw [firstNames, List.foldl_append]
      rfl
    rw [hlast, ih, List.reverse_append, List.reverse_singleton, List.singleton_append,
      List.dedup_cons]
    by_cases hn : n ∈ ns <;> simp [hn]

theorem mem_firstNames {ns : List String} : name ∈ firstNames ns ↔ name ∈ ns := by
  rw [firstNames_eq, List.mem_reverse, List.mem_dedup, List.mem_reverse]

theorem nodup_firstNames (ns : List String) : (firstNames ns).Nodup := by
  rw [firstNames_eq, List.nodup_reverse]
  exact List.nodup_dedup _

theorem names_resolve (environment : Bindings) (bound : List (String × Option String))
    (as : List Assignment) :
    (resolve environment bound as).map (·.1) = bound.map (·.1) ++ as.map (String.ofList ·.1) := by
  induction as generalizing bound with
  | nil => simp [resolve]
  | cons a as ih =>
    change (resolve environment (bound ++ [(String.ofList a.1, _)]) as).map (·.1) = _
    rw [ih, List.map_append, List.append_assoc]
    rfl

/-- The variables of a file, name by name. -/
theorem bindings_eq (environment : Bindings) (ss : List Statement) :
    bindings environment ss =
      (firstNames ((assignments ss).map (String.ofList ·.1))).filterMap fun n =>
        ((given? environment (assignments ss) n).join).map fun v => (n, v) := by
  have hnames : (resolve environment [] (assignments ss)).foldl
      (fun ns (p : String × Option String) => if p.1 ∈ ns then ns else ns ++ [p.1]) [] =
        firstNames ((assignments ss).map (String.ofList ·.1)) := by
    have hmap := names_resolve environment [] (assignments ss)
    rw [List.map_nil, List.nil_append] at hmap
    rw [firstNames, ← hmap, List.foldl_map]
  rw [bindings, ← hnames]
  rfl

theorem get?_filterMap (value? : String → Option String) (ns : List String) (name : String) :
    Bindings.get? (ns.filterMap fun n => (value? n).map fun v => (n, v)) name =
      if name ∈ ns then value? name else none := by
  induction ns with
  | nil => rfl
  | cons n ns ih =>
    rw [List.filterMap_cons]
    by_cases hn : n = name
    · subst hn
      cases hv : value? n with
      | none => simp [ih, hv]
      | some v => simp
    · cases hv : value? n with
      | none => simp [ih, Ne.symm hn]
      | some v => simp [ih, hn, Ne.symm hn]

/-- A file binds a name to what it gives it, and a name without a value not at all. -/
theorem get?_bindings (environment : Bindings) (ss : List Statement) (name : String) :
    (bindings environment ss).get? name = (given? environment (assignments ss) name).join := by
  rw [bindings_eq, get?_filterMap]
  by_cases hname : Assigned (assignments ss) name
  · rw [if_pos (mem_firstNames.mpr (List.mem_map.mpr hname))]
  · rw [if_neg (fun h => hname (List.mem_map.mp (mem_firstNames.mp h))),
      given?_of_not_assigned hname]
    rfl

theorem names_bindings (environment : Bindings) (ss : List Statement) :
    (bindings environment ss).names =
      (firstNames ((assignments ss).map (String.ofList ·.1))).filter fun n =>
        (given? environment (assignments ss) n).join.isSome := by
  rw [bindings_eq, Bindings.names]
  induction firstNames ((assignments ss).map (String.ofList ·.1)) with
  | nil => rfl
  | cons n ns ih =>
    rw [List.filterMap_cons, List.filter_cons]
    cases hv : (given? environment (assignments ss) n).join with
    | none => simpa using ih
    | some v => simpa using ih

theorem nodup_names_bindings (environment : Bindings) (ss : List Statement) :
    (bindings environment ss).names.Nodup := by
  rw [names_bindings]
  exact (nodup_firstNames _).filter _

/-- Whether a name comes to have a value is a matter of the file alone. -/
theorem isSome_join_given? (e₁ e₂ : Bindings) (as : List Assignment) (name : String) :
    (given? e₁ as name).join.isSome = (given? e₂ as name).join.isSome := by
  induction as using List.reverseRecOn with
  | nil => rfl
  | append_singleton as a ih =>
    rw [given?_append_singleton, given?_append_singleton]
    by_cases ha : String.ofList a.1 = name
    · rw [if_pos ha, if_pos ha]
      cases a.2 <;> rfl
    · rw [if_neg ha, if_neg ha, ih]

theorem names_bindings_eq (e₁ e₂ : Bindings) (ss : List Statement) :
    (bindings e₁ ss).names = (bindings e₂ ss).names := by
  rw [names_bindings, names_bindings]
  exact List.filter_congr fun n _ => isSome_join_given? e₁ e₂ _ n

end EnvFile
end DbImage
