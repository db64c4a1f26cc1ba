import DbImage.Proofs.Files.Steps

/-!
# References and their texts

A reference in normal form is read back from its own text, so two references are the same if their
texts are.  Every reference that is read from a text is in normal form, and so is one seen from
another.  Its text is the normal form of the text it is read from, and the only one.
-/

namespace DbImage
namespace Files

/-- The steps of a path that is written with slashes between them. -/
theorem steps_intercalate {ss : List String} (h : ∀ s ∈ ss, s ≠ "" ∧ '/' ∉ s.toList) :
    steps ("/".intercalate ss) = ss := by
  induction ss with
  | nil => rfl
  | cons s ss ih =>
    rw [List.forall_mem_cons] at h
    have hs := steps_of_slash_not_mem h.1.1 h.1.2
    cases ss with
    | nil => rw [String.intercalate_singleton, hs]
    | cons t ts => rw [String.intercalate_cons_cons, steps_append_slash, hs, ih h.2]; rfl

theorem steps_slash_append (path : String) : steps ("/" ++ path) = steps path := by
  have h := steps_append_slash "" path
  rwa [String.empty_append] at h

theorem ne_empty_of_mem_steps {path step : String} (h : step ∈ steps path) :
    step ≠ "" ∧ '/' ∉ step.toList := by
  obtain ⟨chars, hchars, rfl⟩ := List.mem_map.mp h
  obtain ⟨hsplit, hne⟩ := List.mem_filter.mp hchars
  constructor
  · intro e
    rw [String.ofList_eq_empty_iff] at e
    subst e
    exact absurd hne (by decide)
  · rw [String.toList_ofList]
    exact slash_not_mem_of_mem_splitSlash hsplit

namespace Reference

/-- No step is empty, holds a slash or stays where it is. -/
def IsNormal (r : Reference) : Prop :=
  ∀ step ∈ r.steps, step ≠ "" ∧ '/' ∉ step.toList ∧ step ≠ "."

theorem isNormal_ofText (path : String) : (ofText path).IsNormal := by
  intro step hstep
  obtain ⟨hmem, hdot⟩ := List.mem_filter.mp hstep
  exact ⟨(ne_empty_of_mem_steps hmem).1, (ne_empty_of_mem_steps hmem).2, of_decide_eq_true hdot⟩

variable {r s : Reference}

/-- The steps alone do not start at the root. -/
theorem head?_intercalate_ne (h : r.IsNormal) :
    ("/".intercalate r.steps).toList.head? ≠ some '/' := by
  rw [String.toList_intercalate]
  cases hs : r.steps with
  | nil => simp
  | cons step rest =>
    obtain ⟨hne, hslash, -⟩ := h step (hs ▸ List.mem_cons_self)
    obtain ⟨c, cs, hc⟩ := List.exists_cons_of_ne_nil (mt String.toList_eq_nil_iff.mp hne)
    have hhead : ("/".toList.intercalate ((step :: rest).map String.toList)).head? = some c := by
      cases rest <;> simp [hc]
    rw [hhead]
    intro e
    rw [hc] at hslash
    exact hslash (Option.some.inj e ▸ List.mem_cons_self)

/-- What a text starts with says which root it has. -/
theorem root_of_text_append {root : Root} {body : String} (h : body.toList.head? ≠ some '/') :
    Root.of (root.text ++ body) = root := by
  rw [Root.of, String.toList_append]
  cases hb : body.toList with
  | nil => cases root <;> rfl
  | cons c cs =>
    have hc : c ≠ '/' := fun e => h (by rw [hb, e]; rfl)
    cases root <;> simp [Root.text, hc]

theorem ofText_text (h : r.IsNormal) : ofText r.text = r := by
  obtain ⟨root, ss⟩ := r
  have hsteps : ∀ s ∈ ss, s ≠ "" ∧ '/' ∉ s.toList := fun s hs => ⟨(h s hs).1, (h s hs).2.1⟩
  have hfilter : ss.filter (· ≠ ".") = ss :=
    List.filter_eq_self.mpr fun s hs => decide_eq_true (h s hs).2.2
  rw [text_string]
  split
  · rename_i hempty
    obtain ⟨rfl, rfl⟩ := hempty
    rfl
  · have hread : Files.steps (root.text ++ "/".intercalate ss) = ss := by
      cases root with
      | relative => rw [Root.text, String.empty_append, steps_intercalate hsteps]
      | single => rw [Root.text, steps_slash_append, steps_intercalate hsteps]
      | double =>
        have htext : Root.double.text = "/" ++ "/" := rfl
        rw [htext, String.append_assoc, steps_slash_append, steps_slash_append,
          steps_intercalate hsteps]
    rw [ofText, root_of_text_append (head?_intercalate_ne h), hread, hfilter]

/-- References in normal form differ in their texts. -/
theorem text_inj (hr : r.IsNormal) (hs : s.IsNormal) : r.text = s.text ↔ r = s := by
  refine ⟨fun h => ?_, congrArg text⟩
  rw [← ofText_text hr, h, ofText_text hs]

end Reference

/-! ## The normal form of a text -/

/-- A path with nothing to spare: the current directory, a root alone, or steps behind a root, none of
them empty or `.` and with one slash between two. -/
inductive IsNormalText : String → Prop
  | here : IsNormalText "."
  | root {root : Root} : root ≠ .relative → IsNormalText root.text
  | steps (root : Root) {ss : List String} : ss ≠ [] →
      (∀ s ∈ ss, s ≠ "" ∧ '/' ∉ s.toList ∧ s ≠ ".") → IsNormalText (root.text ++ "/".intercalate ss)

/-- `text` leads from the same root over the same steps as `path`, where `.` is none, and has nothing
to spare. -/
structure NormalFormOf (path text : String) : Prop where
  normal : IsNormalText text
  root : Root.of text = Root.of path
  steps : (steps text).filter (· ≠ ".") = (steps path).filter (· ≠ ".")

theorem Reference.isNormalText_text {r : Reference} (h : r.IsNormal) : IsNormalText r.text := by
  rw [Reference.text_string]
  split
  · exact .here
  · rename_i hne
    by_cases hss : r.steps = []
    · have hroot : r.root ≠ .relative := fun hroot => hne ⟨hroot, hss⟩
      have hnil : "/".intercalate r.steps = "" := by rw [hss]; rfl
      rw [hnil, String.append_empty]
      exact .root hroot
    · exact .steps r.root hss h

theorem IsNormalText.exists_reference {text : String} (h : IsNormalText text) :
    ∃ r : Reference, r.IsNormal ∧ r.text = text := by
  cases h with
  | here => exact ⟨⟨.relative, []⟩, fun _ hmem => (List.not_mem_nil hmem).elim, rfl⟩
  | @root root hroot =>
    refine ⟨⟨root, []⟩, fun _ hmem => (List.not_mem_nil hmem).elim, ?_⟩
    rw [Reference.text_string, if_neg fun h => hroot h.1]
    exact String.append_empty
  | steps root hss h =>
    refine ⟨⟨root, _⟩, h, ?_⟩
    rw [Reference.text_string, if_neg fun h => hss h.2]

/-- There is one normal form of a path, and it is the text of its reference. -/
theorem normalFormOf_iff {path text : String} :
    NormalFormOf path text ↔ text = (Reference.ofText path).text := by
  constructor
  · intro h
    obtain ⟨r, hr, rfl⟩ := h.normal.exists_reference
    have hsame : Reference.ofText r.text = Reference.ofText path := by
      rw [Reference.ofText, h.root, h.steps, Reference.ofText]
    rw [← hsame, Reference.ofText_text hr]
  · rintro rfl
    have hr := Reference.isNormal_ofText path
    have hsame := Reference.ofText_text hr
    exact ⟨Reference.isNormalText_text hr, congrArg Reference.root hsame,
      congrArg Reference.steps hsame⟩

end Files
end DbImage
