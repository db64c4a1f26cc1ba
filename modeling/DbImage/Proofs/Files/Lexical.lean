import DbImage.Proofs.Files.Place
import DbImage.Proofs.Files.Reference
import Mathlib.Data.List.Infix
import Mathlib.Data.List.TakeWhile

/-!
# Steps upwards by the text alone

`resolve` takes steps one after the other and never looks at a file: `..` leaves the step before it.
The normal form of a path from the root is the text of what its steps resolve to, and a walk through
directories that are there ends at the same place (`Tree.eq_resolve_of_walk`).  The text above the last
step of such a path is read back as the steps without the last: `ofText_dirName_absolute`.
-/

namespace DbImage
namespace Files

/-- Where steps lead from a place, each name in them taken for a directory. -/
def resolve (here : Location) : List String → Location
  | [] => here
  | step :: rest =>
    if step = "." then resolve here rest
    else if step = ".." then resolve here.dropLast rest
    else resolve (here ++ [step]) rest

variable {here there : Location} {ss ts : List String}

theorem resolve_append : resolve here (ss ++ ts) = resolve (resolve here ss) ts := by
  induction ss generalizing here with
  | nil => rfl
  | cons step rest ih =>
    rw [List.cons_append, resolve, resolve]
    split
    · exact ih
    · split <;> exact ih

theorem resolve_of_names (h : ∀ s ∈ ss, s ≠ "." ∧ s ≠ "..") : resolve here ss = here ++ ss := by
  induction ss generalizing here with
  | nil => exact (List.append_nil here).symm
  | cons step rest ih =>
    rw [List.forall_mem_cons] at h
    rw [resolve, if_neg h.1.1, if_neg h.1.2, ih h.2, List.append_assoc]
    rfl

theorem mem_resolve {s : String} (hs : s ∈ resolve here ss) :
    s ∈ here ∨ s ∈ ss ∧ s ≠ "." ∧ s ≠ ".." := by
  induction ss generalizing here with
  | nil => exact Or.inl hs
  | cons step rest ih =>
    rw [resolve] at hs
    have hrest : s ∈ rest ∧ s ≠ "." ∧ s ≠ ".." → s ∈ step :: rest ∧ s ≠ "." ∧ s ≠ ".." :=
      fun h => ⟨List.mem_cons_of_mem _ h.1, h.2⟩
    split at hs
    · exact (ih hs).imp_right hrest
    rename_i hdot
    split at hs
    · exact (ih hs).imp List.mem_of_mem_dropLast hrest
    rename_i habove
    rcases ih hs with hmem | hmem
    · rcases List.mem_append.mp hmem with hmem | hmem
      · exact Or.inl hmem
      · rw [List.mem_singleton.mp hmem]
        exact Or.inr ⟨List.mem_cons_self, hdot, habove⟩
    · exact Or.inr (hrest hmem)

/-- A walk that arrives does so where its steps lead by the text alone: there are no links. -/
theorem Tree.eq_resolve_of_walk {t : Tree} (h : t.walk here ss = .ok there) :
    there = resolve here ss := by
  induction ss generalizing here with
  | nil => exact (Except.ok.inj h).symm
  | cons step rest ih =>
    obtain ⟨next, henter, hrest⟩ := walk_cons_eq_ok h
    rw [ih hrest, resolve]
    rcases enter_eq_ok henter with ⟨rfl, rfl⟩ | ⟨rfl, rfl⟩ | ⟨hdot, habove, -, -, rfl⟩
    · rfl
    · rfl
    · rw [if_neg hdot, if_neg habove]

/-! ## The normal form of a path from the root -/

/-- At the root there is nothing to leave, so no step upwards is held. -/
theorem reverse_foldl_lexicalStep {root : Root} (hroot : root ≠ .relative) {back : List String}
    (hback : ".." ∉ back) : (ss.foldl (lexicalStep root) back).reverse = resolve back.reverse ss := by
  induction ss generalizing back with
  | nil => rfl
  | cons step rest ih =>
    rw [List.foldl_cons, resolve]
    by_cases hdot : step = "."
    · have hstep : lexicalStep root back step = back := by rw [lexicalStep.eq_def, if_pos hdot]
      rw [if_pos hdot, hstep, ih hback]
    rw [if_neg hdot]
    by_cases habove : step = ".."
    · rw [if_pos habove]
      cases back with
      | nil =>
        have hstep : lexicalStep root [] step = [] := by simp [lexicalStep, habove, hroot]
        rw [hstep, ih hback]
        rfl
      | cons last others =>
        rw [List.mem_cons, not_or] at hback
        have hstep : lexicalStep root (last :: others) step = others := by
          simp [lexicalStep, habove, Ne.symm hback.1]
        rw [hstep, ih hback.2, List.reverse_cons, List.dropLast_concat]
    · have hstep : lexicalStep root back step = step :: back := by
        simp [lexicalStep, hdot, habove]
      have hback' : ".." ∉ step :: back := by
        rw [List.mem_cons, not_or]
        exact ⟨Ne.symm habove, hback⟩
      rw [if_neg habove, hstep, ih hback', List.reverse_cons]

theorem root_of_eq_relative_iff {path : String} :
    Root.of path = .relative ↔ startsAtRoot path = false := by
  rw [Root.of, startsAtRoot]
  split
  · rename_i h; simp [h]
  · rename_i h; simp [h]
  · rename_i h; simp [h]
  · rename_i h
    refine iff_of_true rfl ?_
    cases hp : path.toList with
    | nil => rfl
    | cons c cs =>
      have hc : c ≠ '/' := fun e => h cs (by rw [hp, e])
      simpa using hc

theorem Root.text_ne_empty {root : Root} (hroot : root ≠ .relative) : root.text ≠ "" := by
  cases root with
  | relative => exact absurd rfl hroot
  | single => decide
  | double => decide

namespace Reference

theorem text_of_root {root : Root} (hroot : root ≠ .relative) (ss : List String) :
    (⟨root, ss⟩ : Reference).text = root.text ++ "/".intercalate ss :=
  if_neg fun h => hroot h.1

end Reference

theorem lexicalNormal_of_root {path : String} (hroot : Root.of path ≠ .relative) :
    lexicalNormal path = (⟨Root.of path, resolve [] (steps path)⟩ : Reference).text := by
  rw [lexicalNormal, reverse_foldl_lexicalStep hroot List.not_mem_nil, Reference.text_of_root hroot]
  apply if_neg
  rw [String.isEmpty_iff, String.append_eq_empty_iff]
  exact fun h => Root.text_ne_empty hroot h.1

/-! ## What stands above the last step -/

theorem dropWhile_reverse_append_slash (front : String) {name : String} (h : '/' ∉ name.toList) :
    (front ++ "/" ++ name).toList.reverse.dropWhile (· ≠ '/') = '/' :: front.toList.reverse := by
  rw [reverse_toList_append_slash, List.dropWhile_append_of_pos (forall_mem_reverse_ne_slash h),
    List.dropWhile_cons_of_neg (by simp)]

theorem dirName_of_slashes (front : String) {name : String} (h : '/' ∉ name.toList)
    (hfront : ∀ c ∈ front.toList, c = '/') : dirName (front ++ "/" ++ name) = front ++ "/" := by
  have hkept : ('/' :: front.toList.reverse).dropWhile (· = '/') = [] := by
    rw [List.dropWhile_eq_nil_iff]
    intro c hc
    rcases List.mem_cons.mp hc with rfl | hc
    · rfl
    · exact decide_eq_true (hfront c (List.mem_reverse.mp hc))
  rw [dirName, dropWhile_reverse_append_slash front h, hkept, ← String.toList_inj]
  simp

theorem dirName_of_endsInSlash_eq_false {front name : String} (h : '/' ∉ name.toList)
    (hne : front ≠ "") (hfront : endsInSlash front = false) :
    dirName (front ++ "/" ++ name) = front := by
  have hkept : ('/' :: front.toList.reverse).dropWhile (· = '/') = front.toList.reverse := by
    rw [List.dropWhile_cons_of_pos (by decide), List.dropWhile_eq_self_iff]
    intro hlength e
    rw [endsInSlash, List.getLast?_eq_head?_reverse, List.head?_eq_getElem?,
      List.getElem?_eq_getElem hlength] at hfront
    simp [of_decide_eq_true e] at hfront
  have hsome : front.toList.reverse.isEmpty = false := by simpa using hne
  rw [dirName, dropWhile_reverse_append_slash front h, hkept, hsome, ← String.toList_inj]
  simp

theorem intercalate_concat {front : List String} (hne : front ≠ []) (last : String) :
    "/".intercalate (front ++ [last]) = "/".intercalate front ++ "/" ++ last := by
  induction front with
  | nil => exact absurd rfl hne
  | cons s front ih =>
    cases front with
    | nil => rfl
    | cons t front =>
      have ih := ih (List.cons_ne_nil _ _)
      rw [List.cons_append, List.cons_append, String.intercalate_cons_cons, ← List.cons_append, ih,
        String.intercalate_cons_cons]
      simp only [String.append_assoc]

theorem endsInSlash_intercalate (front : String) {names : List String} (hne : names ≠ [])
    (h : ∀ s ∈ names, s ≠ "" ∧ '/' ∉ s.toList) :
    endsInSlash (front ++ "/".intercalate names) = false := by
  obtain ⟨others, last, rfl⟩ := (List.eq_nil_or_concat' names).resolve_left hne
  obtain ⟨hlast, hslash⟩ := h last (List.mem_append_right _ (List.mem_singleton_self last))
  by_cases hothers : others = []
  · rw [hothers, List.nil_append, String.intercalate_singleton]
    exact endsInSlash_append front hlast hslash
  · rw [intercalate_concat hothers, ← String.append_assoc]
    exact endsInSlash_append _ hlast hslash

/-- Above the last step of a path from the root stand the other steps. -/
theorem dirName_text {r : Reference} (hr : r.IsNormal) (hroot : r.root ≠ .relative) :
    dirName r.text = (⟨r.root, r.steps.dropLast⟩ : Reference).text := by
  obtain ⟨root, ss⟩ := r
  have hnames : ∀ s ∈ ss, s ≠ "" ∧ '/' ∉ s.toList := fun s hs => ⟨(hr s hs).1, (hr s hs).2.1⟩
  show dirName (⟨root, ss⟩ : Reference).text = (⟨root, ss.dropLast⟩ : Reference).text
  rw [Reference.text_of_root hroot, Reference.text_of_root hroot]
  rcases List.eq_nil_or_concat' ss with rfl | ⟨front, last, rfl⟩
  · cases root <;> decide
  rw [List.dropLast_concat]
  have hlast := (hnames last (by simp)).2
  by_cases hfront : front = []
  · subst hfront
    rw [List.nil_append, String.intercalate_singleton]
    cases root with
    | relative => exact absurd rfl hroot
    | single => exact dirName_of_slashes "" hlast nofun
    | double => exact dirName_of_slashes "/" hlast fun c hc => List.mem_singleton.mp hc
  · rw [intercalate_concat hfront, ← String.append_assoc, ← String.append_assoc]
    apply dirName_of_endsInSlash_eq_false hlast
    · rw [Ne, String.append_eq_empty_iff]
      exact fun h => Root.text_ne_empty hroot h.1
    · exact endsInSlash_intercalate _ hfront fun s hs => hnames s (List.mem_append_left _ hs)

theorem isNormal_resolve (root : Root) (path : String) :
    (⟨root, resolve [] (steps path)⟩ : Reference).IsNormal := by
  intro step hstep
  obtain ⟨hmem, hdot, -⟩ := (mem_resolve hstep).resolve_left List.not_mem_nil
  exact ⟨(ne_empty_of_mem_steps hmem).1, (ne_empty_of_mem_steps hmem).2, hdot⟩

/-- The directory of a path from the root, read as a reference. -/
theorem ofText_dirName_absolute {directory path : String}
    (hroot : Root.of (join directory path) ≠ .relative) :
    Reference.ofText (dirName (absolute directory path)) =
      ⟨Root.of (join directory path), (resolve [] (steps (join directory path))).dropLast⟩ := by
  have hnormal := isNormal_resolve (Root.of (join directory path)) (join directory path)
  rw [absolute, lexicalNormal_of_root hroot, dirName_text hnormal hroot]
  apply Reference.ofText_text
  exact fun step hstep => hnormal step (List.dropLast_subset _ hstep)

end Files
end DbImage
