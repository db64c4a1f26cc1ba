import DbImage.Files.Loose
import DbImage.Proofs.Files.Reference

/-!
# Paths in loose texts

What is known of references and their texts holds for loose texts as well: a reference in normal form
is read back from its own text (`ofLoose_text`), and every reference that is read is in normal
form.  On texts of characters the two ways to read a path agree (`ofLoose_ofString`).
-/

namespace DbImage
namespace Files

section

variable {α β : Type} [BEq α] [LawfulBEq α] [BEq β] [LawfulBEq β] {a : α} {l piece : List α}

/-- The pieces between the separators hold none. -/
theorem not_mem_of_mem_splitOn (h : piece ∈ l.splitOn a) : a ∉ piece := by
  induction l generalizing piece with
  | nil =>
    rw [List.splitOn_nil, List.mem_singleton] at h
    exact h ▸ List.not_mem_nil
  | cons b l ih =>
    rw [List.splitOn_cons_eq_if_modifyHead] at h
    split at h
    · rcases List.mem_cons.mp h with rfl | h
      · exact List.not_mem_nil
      · exact ih h
    · rename_i hb
      obtain ⟨first, others, hsplit⟩ := List.exists_cons_of_ne_nil (List.splitOn_ne_nil a l)
      rw [hsplit, List.modifyHead_cons] at h
      rcases List.mem_cons.mp h with rfl | h
      · have hfirst : a ∉ first := ih (hsplit ▸ List.mem_cons_self)
        rw [List.mem_cons, not_or]
        exact ⟨fun e => hb (beq_iff_eq.mpr e.symm), hfirst⟩
      · exact ih (hsplit ▸ List.mem_cons_of_mem _ h)

theorem splitOn_map {f : α → β} (hf : ∀ x, f x = f a ↔ x = a) :
    (l.map f).splitOn (f a) = (l.splitOn a).map (List.map f) := by
  induction l with
  | nil => rfl
  | cons b l ih =>
    have hbeq : (f b == f a) = (b == a) := by
      rw [Bool.eq_iff_iff, beq_iff_eq, beq_iff_eq, hf]
    rw [List.map_cons, List.splitOn_cons_eq_if_modifyHead, List.splitOn_cons_eq_if_modifyHead, hbeq,
      ih]
    obtain ⟨first, others, hsplit⟩ := List.exists_cons_of_ne_nil (List.splitOn_ne_nil a l)
    split <;> simp [hsplit]

end

theorem splitSlash_eq_splitOn (s : List Char) : splitSlash s = s.splitOn '/' := by
  induction s with
  | nil => rfl
  | cons c rest ih =>
    rw [splitSlash, List.splitOn_cons_eq_if_modifyHead, ih]
    obtain ⟨first, others, hsplit⟩ := List.exists_cons_of_ne_nil (List.splitOn_ne_nil '/' rest)
    by_cases hc : c = '/'
    · simp [hc]
    · simp [hc, hsplit]

/-! ## Steps -/

theorem looseSteps_ofString (path : String) :
    looseSteps path = (steps path).map LooseText.ofString := by
  have hsplit : (path.toList.map CodePoint.char).splitOn (.char '/') =
      (splitSlash path.toList).map (List.map .char) := by
    rw [splitSlash_eq_splitOn]
    exact splitOn_map fun c => CodePoint.char.injEq c '/' ▸ Iff.rfl
  have hempty : (fun s : List CodePoint => !s.isEmpty) ∘ List.map .char =
      fun s : List Char => !s.isEmpty := by
    funext s
    simp
  have hpiece : LooseText.mk ∘ List.map .char = LooseText.ofString ∘ String.ofList := by
    funext s
    simp [LooseText.ofString]
  rw [looseSteps, LooseText.ofString, hsplit, steps, List.filter_map, hempty, List.map_map,
    List.map_map, hpiece]

theorem looseSteps_slash_append (points : List CodePoint) :
    looseSteps ⟨.char '/' :: points⟩ = looseSteps ⟨points⟩ := by
  simp [looseSteps, List.splitOn_cons_eq_if_modifyHead]

/-- The steps of a path that is written with slashes between them. -/
theorem looseSteps_intercalate {ss : List LooseText}
    (h : ∀ s ∈ ss, s.points ≠ [] ∧ .char '/' ∉ s.points) :
    looseSteps ⟨[CodePoint.char '/'].intercalate (ss.map (·.points))⟩ = ss := by
  cases ss with
  | nil => rfl
  | cons s ss =>
    have hslash : ∀ l ∈ (s :: ss).map (·.points), CodePoint.char '/' ∉ l := by
      rintro _ hl
      obtain ⟨t, ht, rfl⟩ := List.mem_map.mp hl
      exact (h t ht).2
    have hfilter : ((s :: ss).map (·.points)).filter (!·.isEmpty) = (s :: ss).map (·.points) := by
      refine List.filter_eq_self.mpr fun _ hl => ?_
      obtain ⟨t, ht, rfl⟩ := List.mem_map.mp hl
      simpa using (h t ht).1
    rw [looseSteps, List.splitOn_intercalate _ hslash (by simp), hfilter, List.map_map]
    exact List.map_id _

/-! ## References -/

theorem Root.ofLoose_ofString (path : String) : Root.ofLoose path = Root.of path := by
  rw [Root.ofLoose, Root.of, LooseText.ofString]
  generalize path.toList = s
  rcases s with _ | ⟨a, _ | ⟨b, _ | ⟨c, rest⟩⟩⟩
  · rfl
  · by_cases ha : a = '/' <;> simp [ha]
  · by_cases ha : a = '/' <;> by_cases hb : b = '/' <;> simp [ha, hb]
  · by_cases ha : a = '/' <;> by_cases hb : b = '/' <;> by_cases hc : c = '/' <;> simp [ha, hb, hc]

/-- A path is relative unless a slash stands first. -/
theorem Root.ofLoose_eq_relative_iff {path : LooseText} :
    Root.ofLoose path = .relative ↔ path.points.head? ≠ some (.char '/') := by
  unfold Root.ofLoose
  split
  · simp_all
  · simp_all
  · simp_all
  · rename_i hslash
    refine iff_of_true rfl fun h => ?_
    obtain ⟨rest, hrest⟩ := List.head?_eq_some_iff.mp h
    exact hslash rest hrest

namespace Reference

/-- No step is empty, holds a slash or stays where it is. -/
def IsLooseNormal (r : Reference LooseText) : Prop :=
  ∀ step ∈ r.steps, step.points ≠ [] ∧ .char '/' ∉ step.points ∧ step ≠ "."

/-- A text of characters is the same path as a loose text. -/
theorem ofLoose_ofString (path : String) :
    ofLoose path = (ofText path).map LooseText.ofString := by
  have hdot : (fun step : LooseText => decide (step ≠ ".")) ∘ LooseText.ofString =
      fun step => decide (step ≠ ".") := by
    funext step
    simp
  rw [ofLoose, ofText, map, Root.ofLoose_ofString, looseSteps_ofString, List.filter_map, hdot]

/-- A step of a path in normal form is one as a loose text. -/
theorem IsNormal.looseText {r : Reference} (h : r.IsNormal) (step : String) (hstep : step ∈ r.steps) :
    (step : LooseText).points ≠ [] ∧ .char '/' ∉ (step : LooseText).points ∧
      (step : LooseText) ≠ "." := by
  obtain ⟨hne, hslash, hdot⟩ := h step hstep
  refine ⟨?_, ?_, ?_⟩
  · simpa [LooseText.ofString] using hne
  · simpa [LooseText.ofString] using hslash
  · simpa using hdot

theorem isLooseNormal_ofLoose (path : LooseText) : (ofLoose path).IsLooseNormal := by
  intro step hstep
  obtain ⟨hmem, hdot⟩ := List.mem_filter.mp hstep
  obtain ⟨points, hpoints, rfl⟩ := List.mem_map.mp hmem
  obtain ⟨hsplit, hne⟩ := List.mem_filter.mp hpoints
  exact ⟨by simpa using hne, not_mem_of_mem_splitOn hsplit, of_decide_eq_true hdot⟩

theorem IsLooseNormal.under {base path : Reference LooseText} (hb : base.IsLooseNormal)
    (hp : path.IsLooseNormal) : (base.under path).IsLooseNormal := by
  unfold Reference.under
  split
  · intro step hstep
    exact (List.mem_append.mp hstep).elim (hb step) (hp step)
  · exact hp

variable {r : Reference LooseText}

/-- The steps alone do not start at the root. -/
theorem head?_intercalate_points_ne {ss : List LooseText}
    (h : ∀ s ∈ ss, s.points ≠ [] ∧ .char '/' ∉ s.points) :
    ([CodePoint.char '/'].intercalate (ss.map (·.points))).head? ≠ some (.char '/') := by
  cases ss with
  | nil => simp
  | cons s rest =>
    obtain ⟨hne, hslash⟩ := h s List.mem_cons_self
    obtain ⟨p, ps, hp⟩ := List.exists_cons_of_ne_nil hne
    have hhead : ([CodePoint.char '/'].intercalate ((s :: rest).map (·.points))).head? =
        some p := by
      cases rest <;> simp [hp]
    rw [hhead]
    intro e
    rw [hp] at hslash
    exact hslash (Option.some.inj e ▸ List.mem_cons_self)

/-- What a text starts with says which root it has, if the steps do not start at one. -/
theorem root_ofLoose_text {root : Root} {points : List CodePoint}
    (h : points.head? ≠ some (.char '/')) :
    Root.ofLoose ⟨root.text.toList.map .char ++ points⟩ = root := by
  cases points with
  | nil => cases root <;> rfl
  | cons p ps =>
    have hp : p ≠ .char '/' := fun e => h (e ▸ rfl)
    cases root <;> simp [Root.ofLoose, Root.text, hp]

theorem ofLoose_text (h : r.IsLooseNormal) : ofLoose r.text = r := by
  obtain ⟨root, ss⟩ := r
  have hsteps : ∀ s ∈ ss, s.points ≠ [] ∧ .char '/' ∉ s.points :=
    fun s hs => ⟨(h s hs).1, (h s hs).2.1⟩
  have hfilter : ss.filter (fun s : LooseText => s ≠ ".") = ss :=
    List.filter_eq_self.mpr fun s hs => decide_eq_true (h s hs).2.2
  rw [text_loose]
  split
  · rename_i hempty
    obtain ⟨rfl, rfl⟩ := hempty
    decide
  · generalize hbody : [CodePoint.char '/'].intercalate (ss.map (·.points)) = body
    have hhead : body.head? ≠ some (.char '/') :=
      hbody ▸ head?_intercalate_points_ne hsteps
    have hread : looseSteps ⟨root.text.toList.map .char ++ body⟩ = ss := by
      have hbare : looseSteps ⟨body⟩ = ss := hbody ▸ looseSteps_intercalate hsteps
      cases root with
      | relative => exact hbare
      | single => exact (looseSteps_slash_append body).trans hbare
      | double =>
        exact (looseSteps_slash_append _).trans ((looseSteps_slash_append body).trans hbare)
    rw [ofLoose, root_ofLoose_text hhead, hread, hfilter]

/-- Seen from the current directory a path is itself. -/
theorem under_ofLoose_dot (r : Reference LooseText) : (ofLoose ".").under r = r := by
  have hdot : ofLoose "." = ⟨.relative, []⟩ := by decide
  rw [hdot, under]
  split
  · rename_i hroot
    rw [← hroot]
    rfl
  · rfl

end Reference
end Files
end DbImage
