import DbImage.Bindings
import DbImage.Proofs.Sorting

/-!
# Order and look-up of variables

Bindings in ascending order of their names are determined by what they answer to look-ups, so two
ways to the same answers lead to the same list.  `eq_of_get?_eq` is that fact, and the rest says
what overlaying and sorting do to the answers.
-/

namespace DbImage
namespace Bindings

variable {τ : Type}

/-- The value of a name in a list of pairs that may repeat it: the last one counts. -/
def last? (pairs : List (String × τ)) (name : String) : Option τ :=
  get? pairs.reverse name

/-- In strictly ascending order of the names, by code points. -/
def Ascending (b : Bindings τ) : Prop :=
  b.Pairwise fun p q => p.1 < q.1

theorem get?_append (a b : Bindings τ) (name : String) :
    get? (a ++ b) name = (get? a name).or (get? b name) := by
  induction a with
  | nil => rfl
  | cons p rest ih =>
    rw [List.cons_append, get?_cons, get?_cons, ih]
    by_cases h : p.1 = name
    · rw [if_pos h, if_pos h, Option.some_or]
    · rw [if_neg h, if_neg h]

theorem isSome_get?_iff {b : Bindings τ} {name : String} :
    (get? b name).isSome = true ↔ name ∈ b.names := by
  induction b with
  | nil => simp [names]
  | cons p rest ih =>
    rw [get?_cons, names, List.map_cons, List.mem_cons]
    by_cases h : p.1 = name
    · rw [if_pos h]
      exact iff_of_true rfl (Or.inl h.symm)
    · rw [if_neg h, ih, or_iff_right (Ne.symm h)]
      rfl

theorem get?_eq_none_of_not_mem {b : Bindings τ} {name : String} (h : name ∉ b.names) :
    get? b name = none :=
  Option.not_isSome_iff_eq_none.mp fun hsome => h (isSome_get?_iff.mp hsome)

theorem last?_cons (p : String × τ) (ps : List (String × τ)) (name : String) :
    last? (p :: ps) name = (last? ps name).or (if p.1 = name then some p.2 else none) := by
  unfold last?
  rw [List.reverse_cons, get?_append, get?_cons, get?_nil]

theorem isSome_last?_iff {ps : Bindings τ} {name : String} :
    (last? ps name).isSome = true ↔ name ∈ ps.names := by
  rw [last?, isSome_get?_iff, names, List.map_reverse, List.mem_reverse, names]

theorem last?_eq_none_of_not_mem {ps : Bindings τ} {name : String} (h : name ∉ ps.names) :
    last? ps name = none :=
  Option.not_isSome_iff_eq_none.mp fun hsome => h (isSome_last?_iff.mp hsome)

/-- What pairs put over other bindings give wherever they have the name. -/
theorem get?_overlay (b : Bindings τ) (ps : List (String × τ)) (name : String) :
    get? (overlay b ps) name = (last? ps name).or (get? b name) := by
  induction ps generalizing b with
  | nil => rfl
  | cons p ps ih =>
    rw [overlay_cons, ih, last?_cons, get?_put]
    by_cases h : p.1 = name
    · rw [if_pos h, if_pos h]
      cases last? ps name <;> rfl
    · rw [if_neg h, if_neg h]
      cases last? ps name <;> rfl

theorem get?_ofPairs (ps : List (String × τ)) (name : String) :
    get? (ofPairs ps) name = last? ps name := by
  rw [ofPairs, get?_overlay, get?_nil, Option.or_none]

/-! ## Each name once -/

theorem nodup_names_put {b : Bindings τ} (h : b.names.Nodup) (name : String) (value : τ) :
    (put name value b).names.Nodup := by
  rw [names_put]
  by_cases hn : name ∈ b.names
  · rw [if_pos hn]
    exact h
  · rw [if_neg hn, List.nodup_append]
    refine ⟨h, by simp, fun n hm m hs => ?_⟩
    rw [List.mem_singleton] at hs
    exact fun e => hn (hs ▸ e ▸ hm)

theorem nodup_names_overlay {b : Bindings τ} (h : b.names.Nodup) (ps : List (String × τ)) :
    (overlay b ps).names.Nodup := by
  induction ps generalizing b with
  | nil => exact h
  | cons p ps ih => exact ih (nodup_names_put h p.1 p.2)

theorem nodup_names_ofPairs (ps : List (String × τ)) : (ofPairs ps).names.Nodup :=
  nodup_names_overlay (b := []) List.nodup_nil ps

/-- What names there are after an overlay depends on the names below and not on their values. -/
theorem names_overlay_congr {a b : Bindings τ} (h : a.names = b.names) (ps : List (String × τ)) :
    (overlay a ps).names = (overlay b ps).names := by
  induction ps generalizing a b with
  | nil => exact h
  | cons p ps ih => exact ih (by rw [names_put, names_put, h])

/-- Bindings of the same names in the same order, each once, differ at most in their answers. -/
theorem eq_of_names_eq {a b : Bindings τ} (hnames : a.names = b.names) (hnodup : a.names.Nodup)
    (h : ∀ name, get? a name = get? b name) : a = b := by
  induction a generalizing b with
  | nil => exact (List.map_eq_nil_iff.mp hnames.symm).symm
  | cons p a ih =>
    cases b with
    | nil => cases hnames
    | cons q b =>
      obtain ⟨hname, hrest⟩ : p.1 = q.1 ∧ names a = names b := List.cons.inj hnames
      obtain ⟨hnot, hnodup⟩ : p.1 ∉ names a ∧ (names a).Nodup := List.nodup_cons.mp hnodup
      have hvalue := h p.1
      rw [get?_cons, get?_cons, if_pos rfl, if_pos hname.symm] at hvalue
      obtain rfl : p = q := Prod.ext hname (Option.some.inj hvalue)
      refine congrArg (p :: ·) (ih hrest hnodup fun name => ?_)
      by_cases hp : p.1 = name
      · subst hp
        rw [get?_eq_none_of_not_mem hnot, get?_eq_none_of_not_mem (hrest ▸ hnot)]
      · have hget := h name
        rwa [get?_cons, get?_cons, if_neg hp, if_neg hp] at hget

theorem perm_names {a b : Bindings τ} (h : a.Perm b) : a.names.Perm b.names :=
  h.map _

theorem nodup_of_nodup_names {b : Bindings τ} (h : b.names.Nodup) : b.Nodup :=
  (List.pairwise_map.mp h).imp fun hne e => hne (congrArg Prod.fst e)

/-- With each name once, a look-up finds exactly what stands in the list. -/
theorem get?_eq_some_iff {b : Bindings τ} (h : b.names.Nodup) {name : String} {value : τ} :
    get? b name = some value ↔ (name, value) ∈ b := by
  induction b with
  | nil => simp
  | cons p rest ih =>
    obtain ⟨n, v⟩ := p
    have hn : n ∉ names rest ∧ (names rest).Nodup := List.nodup_cons.mp h
    rw [get?_cons, List.mem_cons]
    by_cases e : n = name
    · subst e
      have hrest : (n, value) ∉ rest := fun hm => hn.1 (List.mem_map_of_mem hm)
      simp [hrest, eq_comm]
    · rw [if_neg e, ih hn.2]
      simp [Ne.symm e]

theorem get?_perm {a b : Bindings τ} (ha : a.names.Nodup) (hab : a.Perm b) (name : String) :
    get? a name = get? b name := by
  have hb : b.names.Nodup := (perm_names hab).nodup_iff.mp ha
  refine Option.ext fun value => ?_
  rw [get?_eq_some_iff ha, get?_eq_some_iff hb, hab.mem_iff]

theorem last?_of_nodup {b : Bindings τ} (h : b.names.Nodup) (name : String) :
    last? b name = get? b name :=
  (get?_perm h (List.reverse_perm b).symm name).symm

/-! ## Ascending order -/

theorem Ascending.nodup_names {b : Bindings τ} (h : Ascending b) : b.names.Nodup :=
  List.pairwise_map.mpr (h.imp fun hlt => String.ne_of_lt hlt)

theorem perm_sorted (b : Bindings τ) : b.sorted.Perm b :=
  List.mergeSort_perm b _

theorem get?_sorted {b : Bindings τ} (h : b.names.Nodup) (name : String) :
    get? b.sorted name = get? b name :=
  (get?_perm h b.perm_sorted.symm name).symm

/-- Sorting orders the names, and where no name stands twice it orders them strictly. -/
theorem ascending_sorted {b : Bindings τ} (h : b.names.Nodup) : Ascending b.sorted := by
  have hle : b.sorted.Pairwise fun p q => p.1 ≤ q.1 := pairwise_key_le Prod.fst b
  have hne : b.sorted.Pairwise fun p q => p.1 ≠ q.1 :=
    List.pairwise_map.mp ((perm_names b.perm_sorted).nodup_iff.mpr h)
  refine hle.imp₂ (fun p q hpq hn => ?_) hne
  exact String.not_le.mp fun hqp => hn (String.le_antisymm hpq hqp)

/-- Ascending bindings are determined by the answers they give. -/
theorem eq_of_get?_eq {a b : Bindings τ} (ha : Ascending a) (hb : Ascending b)
    (h : ∀ name, get? a name = get? b name) : a = b := by
  have hmem : ∀ p, p ∈ a ↔ p ∈ b := fun (n, v) => by
    rw [← get?_eq_some_iff ha.nodup_names, ← get?_eq_some_iff hb.nodup_names, h]
  have hperm : a.Perm b :=
    (List.perm_ext_iff_of_nodup (nodup_of_nodup_names ha.nodup_names)
      (nodup_of_nodup_names hb.nodup_names)).mpr hmem
  refine hperm.eq_of_pairwise (fun p q _ _ hpq hqp => ?_) ha hb
  exact absurd hqp (String.lt_asymm hpq)

/-- Ascending pairs are determined by the bindings that they make, in whatever order. -/
theorem eq_of_perm_ofPairs {a b : Bindings τ} (ha : Ascending a) (hb : Ascending b)
    (h : (ofPairs a).Perm (ofPairs b)) : a = b := by
  refine eq_of_get?_eq ha hb fun name => ?_
  have hname := get?_perm (nodup_names_ofPairs a) h name
  rwa [get?_ofPairs, get?_ofPairs, last?_of_nodup ha.nodup_names,
    last?_of_nodup hb.nodup_names] at hname

end Bindings
end DbImage
