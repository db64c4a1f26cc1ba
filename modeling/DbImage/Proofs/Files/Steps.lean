import DbImage.Files.Path

/-!
# The steps of joined paths

Joining a name to a path adds one step at the end and leaves the start of the path as it was, whether
or not the path ends in a slash.
-/

namespace DbImage
namespace Files

/-- A text that is one step of a path and leads on from a directory. -/
structure IsName (name : String) : Prop where
  ne_empty : name ≠ ""
  slash_not_mem : '/' ∉ name.toList
  ne_here : name ≠ "."
  ne_above : name ≠ ".."

theorem splitSlash_append_slash (s t : List Char) :
    splitSlash (s ++ '/' :: t) = splitSlash s ++ splitSlash t := by
  induction s with
  | nil => simp [splitSlash]
  | cons c s ih =>
    rw [List.cons_append, splitSlash, splitSlash]
    by_cases hc : c = '/'
    · rw [if_pos hc, if_pos hc, ih, List.cons_append]
    · rw [if_neg hc, if_neg hc, ih]
      cases hs : splitSlash s with
      | nil => exact absurd hs (splitSlash_ne_nil s)
      | cons step steps => rfl

theorem splitSlash_of_slash_not_mem {s : List Char} (h : '/' ∉ s) : splitSlash s = [s] := by
  induction s with
  | nil => rfl
  | cons c s ih =>
    rw [List.mem_cons, not_or] at h
    rw [splitSlash, if_neg (Ne.symm h.1), ih h.2]

theorem steps_append_slash (a b : String) : steps (a ++ "/" ++ b) = steps a ++ steps b := by
  have hlist : (a ++ "/" ++ b).toList = a.toList ++ '/' :: b.toList := by
    rw [String.toList_append, String.toList_append, List.append_assoc]
    rfl
  rw [steps, hlist, splitSlash_append_slash, List.filter_append, List.map_append, steps, steps]

@[simp]
theorem steps_empty : steps "" = [] := rfl

theorem steps_of_slash_not_mem {step : String} (hne : step ≠ "") (h : '/' ∉ step.toList) :
    steps step = [step] := by
  have hlist : step.toList ≠ [] := fun e => hne (String.toList_eq_nil_iff.mp e)
  rw [steps, splitSlash_of_slash_not_mem h]
  simp [hlist]

theorem steps_of_isName {name : String} (h : IsName name) : steps name = [name] :=
  steps_of_slash_not_mem h.ne_empty h.slash_not_mem

/-- A path that ends in a slash is some path and the slash. -/
theorem exists_of_endsInSlash {path : String} (h : endsInSlash path = true) :
    ∃ front, path = front ++ "/" := by
  have hlast : path.toList.getLast? = some '/' := by simpa [endsInSlash] using h
  obtain ⟨front, hfront⟩ := List.getLast?_eq_some_iff.mp hlast
  refine ⟨String.ofList front, String.toList_inj.mp ?_⟩
  rw [hfront, String.toList_append, String.toList_ofList]
  rfl

theorem startsAtRoot_of_slash_not_mem {name : String} (h : '/' ∉ name.toList) :
    startsAtRoot name = false := by
  unfold startsAtRoot
  cases hl : name.toList with
  | nil => rfl
  | cons c s =>
    have hc : c ≠ '/' := fun e => h (by simp [hl, e])
    simp [hc]

/-! ## The path above the last step -/

theorem splitSlash_of_forall_slash {s : List Char} (h : ∀ c ∈ s, c = '/') :
    (splitSlash s).filter (!·.isEmpty) = [] := by
  induction s with
  | nil => rfl
  | cons c s ih =>
    rw [List.forall_mem_cons] at h
    rw [splitSlash, if_pos h.1, List.filter_cons_of_neg (by simp), ih h.2]

/-- What precedes the last step is a front of the path.  Either it is slashes alone, or a slash comes
after it. -/
theorem dirName_cases (path : String) :
    ∃ rest, path.toList = (dirName path).toList ++ rest ∧
      ((∀ c ∈ (dirName path).toList, c = '/') ∨ ∃ t, rest = '/' :: t) := by
  have hpath := List.takeWhile_append_dropWhile (p := (· ≠ '/')) (l := path.toList.reverse)
  have hstarts := List.head?_dropWhile_not (· ≠ '/') path.toList.reverse
  generalize hhead : path.toList.reverse.dropWhile (· ≠ '/') = head at hpath hstarts
  generalize path.toList.reverse.takeWhile (· ≠ '/') = last at hpath
  have hsplit := List.takeWhile_append_dropWhile (p := (· = '/')) (l := head)
  have hslashes : ∀ c ∈ head.takeWhile (· = '/'), c = '/' := fun c hc =>
    of_decide_eq_true (List.all_eq_true.mp List.all_takeWhile c hc)
  have hkept := List.head?_dropWhile_not (· = '/') head
  rw [dirName, hhead]
  generalize head.takeWhile (· = '/') = slashes at hsplit hslashes
  generalize head.dropWhile (· = '/') = kept at hsplit hkept
  have hlist : path.toList = head.reverse ++ last.reverse := by
    rw [← List.reverse_append, hpath, List.reverse_reverse]
  cases kept with
  | nil =>
    rw [List.append_nil] at hsplit
    subst hsplit
    exact ⟨last.reverse, by simpa using hlist, Or.inl (by simpa using hslashes)⟩
  | cons c cs =>
    refine ⟨slashes.reverse ++ last.reverse, ?_, Or.inr ?_⟩
    · simp [hlist, ← hsplit]
    · -- `head` starts with a slash, so there is one before what is kept
      have hne : slashes ≠ [] := by
        intro e
        subst e
        rw [← hsplit] at hstarts
        exact absurd (show c = '/' by simpa using hstarts) (by simpa using hkept)
      obtain ⟨d, ds, hds⟩ := List.exists_cons_of_ne_nil (List.reverse_ne_nil_iff.mpr hne)
      have hd : d = '/' := hslashes d (List.mem_reverse.mp (hds ▸ List.mem_cons_self))
      exact ⟨ds ++ last.reverse, by rw [hds, hd]; rfl⟩

theorem steps_dirName_prefix (path : String) : steps (dirName path) <+: steps path := by
  obtain ⟨rest, hpath, hslash | ⟨t, rfl⟩⟩ := dirName_cases path
  · rw [steps, splitSlash_of_forall_slash hslash]
    exact List.nil_prefix
  · rw [steps, steps, hpath, splitSlash_append_slash, List.filter_append, List.map_append]
    exact List.prefix_append _ _

theorem startsAtRoot_dirName {path : String} (h : dirName path ≠ "") :
    startsAtRoot (dirName path) = startsAtRoot path := by
  obtain ⟨rest, hpath, -⟩ := dirName_cases path
  have hne : (dirName path).toList ≠ [] := fun e => h (String.toList_eq_nil_iff.mp e)
  obtain ⟨c, cs, hc⟩ := List.exists_cons_of_ne_nil hne
  rw [startsAtRoot, startsAtRoot, hpath, hc]
  rfl

/-! ## The last step -/

theorem slash_not_mem_baseName (path : String) : '/' ∉ (baseName path).toList := by
  rw [baseName, String.toList_ofList, List.mem_reverse]
  intro hmem
  exact absurd (List.all_eq_true.mp List.all_takeWhile '/' hmem) (by decide)

theorem reverse_toList_append_slash (front name : String) :
    (front ++ "/" ++ name).toList.reverse = name.toList.reverse ++ '/' :: front.toList.reverse := by
  rw [String.toList_append, String.toList_append, List.reverse_append, List.reverse_append]
  rfl

theorem forall_mem_reverse_ne_slash {name : String} (h : '/' ∉ name.toList) :
    ∀ c ∈ name.toList.reverse, decide (c ≠ '/') = true := fun _ hc =>
  decide_eq_true fun e => h (e ▸ List.mem_reverse.mp hc)

theorem baseName_append_slash (front : String) {name : String} (h : '/' ∉ name.toList) :
    baseName (front ++ "/" ++ name) = name := by
  rw [baseName, reverse_toList_append_slash,
    List.takeWhile_append_of_pos (forall_mem_reverse_ne_slash h),
    List.takeWhile_cons_of_neg (by simp), List.append_nil, List.reverse_reverse, String.ofList_toList]

/-! ## A name joined to a path -/

variable (base : String) {name : String}

theorem IsName.startsAtRoot (h : IsName name) : startsAtRoot name = false :=
  startsAtRoot_of_slash_not_mem h.slash_not_mem

/-- A path that does not start at the root follows the other directly or after a slash. -/
theorem join_of_relative (h : startsAtRoot name = false) :
    join base name = base ++ name ∧ (base = "" ∨ endsInSlash base = true) ∨
      join base name = base ++ "/" ++ name := by
  rw [join, h, if_neg (by simp)]
  split
  · rename_i hb
    exact Or.inl ⟨rfl, by simpa using hb⟩
  · exact Or.inr rfl

theorem steps_join_of_relative (h : startsAtRoot name = false) :
    steps (join base name) = steps base ++ steps name := by
  rcases join_of_relative base h with ⟨hj, rfl | hb⟩ | hj
  · rw [hj, String.empty_append]
    rfl
  · obtain ⟨front, rfl⟩ := exists_of_endsInSlash hb
    have hfront : steps (front ++ "/") = steps front := by
      have := steps_append_slash front ""
      rwa [String.append_empty, steps_empty, List.append_nil] at this
    rw [hj, steps_append_slash, hfront]
  · rw [hj, steps_append_slash]

theorem steps_join (h : IsName name) : steps (join base name) = steps base ++ [name] := by
  rw [steps_join_of_relative base h.startsAtRoot, steps_of_isName h]

theorem getLast?_steps_join (h : IsName name) : (steps (join base name)).getLast? = some name := by
  rw [steps_join base h, List.getLast?_append]
  rfl

theorem dropLast_steps_join (h : IsName name) : (steps (join base name)).dropLast = steps base := by
  rw [steps_join base h, List.dropLast_concat]

theorem endsInSlash_append (hne : name ≠ "") (h : '/' ∉ name.toList) :
    endsInSlash (base ++ name) = false := by
  have hlist : name.toList ≠ [] := fun e => hne (String.toList_eq_nil_iff.mp e)
  have hlast : name.toList.getLast hlist ≠ '/' := fun e => h (e ▸ List.getLast_mem hlist)
  rw [endsInSlash, String.toList_append, List.getLast?_append, List.getLast?_eq_some_getLast hlist]
  simpa using hlast

/-- A name ends in no slash, so a path does not either once a name is joined to it. -/
theorem endsInSlash_join (h : IsName name) : endsInSlash (join base name) = false := by
  have hend : ∀ front : String, endsInSlash (front ++ name) = false := fun front =>
    endsInSlash_append front h.ne_empty h.slash_not_mem
  rcases join_of_relative base h.startsAtRoot with ⟨hj, -⟩ | hj <;> rw [hj, hend]

theorem startsAtRoot_join_of_relative (h : startsAtRoot name = false) :
    startsAtRoot (join base name) = startsAtRoot base := by
  have hname : base = "" → startsAtRoot (join base name) = startsAtRoot base := by
    intro e
    subst e
    have hj : join "" name = name := by
      rw [join, h, if_neg (by simp)]
      exact String.empty_append
    rw [hj, h]
    rfl
  by_cases hb : base = ""
  · exact hname hb
  · have hhead : ∀ s, startsAtRoot (base ++ s) = startsAtRoot base := by
      intro s
      have hne : base.toList ≠ [] := fun e => hb (String.toList_eq_nil_iff.mp e)
      obtain ⟨c, cs, hc⟩ := List.exists_cons_of_ne_nil hne
      rw [startsAtRoot, startsAtRoot, String.toList_append, hc]
      rfl
    rcases join_of_relative base h with ⟨hj, -⟩ | hj
    · rw [hj, hhead]
    · rw [hj, String.append_assoc, hhead]

theorem startsAtRoot_join (h : IsName name) : startsAtRoot (join base name) = startsAtRoot base :=
  startsAtRoot_join_of_relative base h.startsAtRoot

/-! ## The length of a path -/

/-- A front of a path is no longer than the path. -/
theorem size_le_of_front {path : String} {rest : List Char}
    (hpath : path.toList = base.toList ++ rest) : base.utf8ByteSize ≤ path.utf8ByteSize := by
  obtain rfl : path = base ++ String.ofList rest := by
    rw [← String.toList_inj, hpath, String.toList_append, String.toList_ofList]
  rw [String.utf8ByteSize_append]
  exact Nat.le_add_right _ _

/-- A path is a front of itself with a name joined to it. -/
theorem exists_toList_join (hslash : '/' ∉ name.toList) :
    ∃ rest, (join base name).toList = base.toList ++ rest := by
  rcases join_of_relative base (startsAtRoot_of_slash_not_mem hslash) with ⟨hj, -⟩ | hj
  · exact ⟨_, by rw [hj, String.toList_append]⟩
  · exact ⟨_, by rw [hj, String.append_assoc, String.toList_append]⟩

end Files
end DbImage
