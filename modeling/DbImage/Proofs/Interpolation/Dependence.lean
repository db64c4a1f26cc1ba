import DbImage.Proofs.Interpolation.Reading
import Mathlib.Data.List.Basic
import Mathlib.Data.List.Find

/-!
# What a template depends on

Which stretches of a template are tokens is settled before any variable is looked up.  So the outcome
depends on the variables that its tokens name and on no others, on those that are only tested no
further than to their text, and whether there is a result at all depends on which names are set:
`interpolate_determined_by_mentioned`.
-/

namespace DbImage
namespace Interpolation

namespace Piece

/-- The name that the piece tests. It may as well be unset. -/
def tested? : Piece → Option String
  | orElse name _ => some (String.ofList name)
  | ifSet name _ => some (String.ofList name)
  | _ => none

variable {a b : Bindings} {p : Piece}

theorem meaning_congr (hneeded : ∀ name, p.required? = some name → a.get? name = b.get? name)
    (htested : ∀ name, p.tested? = some name → (a.get? name).getD "" = (b.get? name).getD "") :
    p.meaning a = p.meaning b := by
  cases p with
  | char c => rfl
  | dollar => rfl
  | value name => rw [meaning, meaning, valueOf, valueOf, hneeded _ rfl]
  | orElse name alt => rw [meaning, meaning, valueOf, valueOf, htested _ rfl]
  | ifSet name alt => rw [meaning, meaning, valueOf, valueOf, htested _ rfl]

end Piece

/-- Two bindings that are alike to a reading. A name that must be set has the same value in both, or
none in both; for one that is only tested, unset is as good as empty. -/
structure AgreeOn (ps : List Piece) (a b : Bindings) : Prop where
  needed : ∀ name ∈ ps.filterMap Piece.required?, a.get? name = b.get? name
  tested : ∀ name ∈ ps.filterMap Piece.tested?, (a.get? name).getD "" = (b.get? name).getD ""

variable {a b : Bindings} {ps : List Piece}

theorem AgreeOn.of_forall (h : ∀ name, a.get? name = b.get? name) (ps : List Piece) :
    AgreeOn ps a b :=
  ⟨fun name _ => h name, fun name _ => congrArg (Option.getD · "") (h name)⟩

theorem AgreeOn.meaning_eq (h : AgreeOn ps a b) {p : Piece} (hp : p ∈ ps) :
    p.meaning a = p.meaning b := by
  refine Piece.meaning_congr (fun name hname => ?_) (fun name hname => ?_)
  · exact h.needed name (List.mem_filterMap.mpr ⟨p, hp, hname⟩)
  · exact h.tested name (List.mem_filterMap.mpr ⟨p, hp, hname⟩)

/-- The name that is missing is found among those that must be set, and there the two agree. -/
theorem AgreeOn.expandPieces_eq (h : AgreeOn ps a b) : expandPieces a ps = expandPieces b ps := by
  have hmissing : (ps.filterMap Piece.required?).find? (fun name => (a.get? name).isNone) =
      (ps.filterMap Piece.required?).find? (fun name => (b.get? name).isNone) :=
    List.find?_congr fun name hname => congrArg Option.isNone (h.needed name hname)
  have hmeaning : ps.flatMap (Piece.meaning a) = ps.flatMap (Piece.meaning b) :=
    List.flatMap_congr fun p hp => h.meaning_eq hp
  rw [Interpolation.expandPieces_eq, Interpolation.expandPieces_eq, hmissing, hmeaning]

theorem interpolate_eq_of_agreeOn {template : String} (h : AgreeOn (pieces template.toList) a b) :
    interpolate template a = interpolate template b := by
  rw [interpolate, interpolate, h.expandPieces_eq]

/-- Bindings that answer all look-ups alike are alike to every template. -/
theorem interpolate_congr (h : ∀ name, a.get? name = b.get? name) (template : String) :
    interpolate template a = interpolate template b :=
  interpolate_eq_of_agreeOn (.of_forall h _)

theorem exists_expandPieces_eq_ok_iff :
    (∃ out, expandPieces b ps = .ok out) ↔
      ∀ name ∈ ps.filterMap Piece.required?, (b.get? name).isSome = true := by
  constructor
  · intro h name hname
    obtain ⟨out, hout⟩ := h
    rw [expandPieces_eq] at hout
    cases hfind : (ps.filterMap Piece.required?).find? (fun name => (b.get? name).isNone) with
    | none => simpa [Option.isSome_iff_ne_none] using List.find?_eq_none.mp hfind name hname
    | some missing =>
      rw [hfind] at hout
      cases hout
  · exact fun h => ⟨_, expandPieces_of_bound h⟩

/-- There is a result exactly if every name that must be set is. -/
theorem exists_interpolate_eq_ok_iff {template : String} :
    (∃ out, interpolate template b = .ok out) ↔
      ∀ name ∈ (pieces template.toList).filterMap Piece.required?, (b.get? name).isSome = true := by
  rw [← exists_expandPieces_eq_ok_iff, interpolate]
  cases expandPieces b (pieces template.toList) with
  | error name =>
    refine iff_of_false (fun hresult => ?_) (fun hresult => ?_)
    · obtain ⟨out, hout⟩ := hresult
      cases hout
    · obtain ⟨out, hout⟩ := hresult
      cases hout
  | ok out => exact iff_of_true ⟨_, rfl⟩ ⟨_, rfl⟩

/-- The reading of a template, which is one and the same for all variables, has all the names that
matter to the outcome. Bindings that agree on these come to the same result or miss the same name, and
once there is a result there is one for all bindings that set at least the same names, to whatever. -/
theorem interpolate_determined_by_mentioned (template : String) :
    ∃ ps, (∀ qs, Reads template.toList qs ↔ qs = ps) ∧
      (∀ a b, AgreeOn ps a b → interpolate template a = interpolate template b) ∧
      ∀ a b : Bindings, (∃ out, interpolate template a = .ok out) →
        (∀ name, (a.get? name).isSome = true → (b.get? name).isSome = true) →
        ∃ out, interpolate template b = .ok out := by
  refine ⟨pieces template.toList, fun qs => reads_iff, fun a b h => interpolate_eq_of_agreeOn h, ?_⟩
  intro a b hresult hset
  rw [exists_interpolate_eq_ok_iff] at hresult ⊢
  exact fun name hname => hset name (hresult name hname)

/-- A variable that is only tested is empty or unset, and one that follows two dollar signs is not
looked up; then both that matter have other values. -/
theorem interpolate_determined_by_mentioned_of_tested :
    let template := "${B}-${A:-x}$${C}"
    let a : Bindings := [("B", "1"), ("A", "")]
    interpolate template a = interpolate template [("C", "2"), ("B", "1")] ∧
      ∃ out, interpolate template [("A", "$$"), ("B", "")] = .ok out := by
  intro template a
  obtain ⟨ps, hps, heq, hsucceeds⟩ := interpolate_determined_by_mentioned template
  have hpieces : pieces template.toList =
      [.value ['B'], .char '-', .orElse ['A'] ['x'], .dollar, .char '{', .char 'C', .char '}'] := by
    decide +kernel
  obtain rfl : _ = ps := (hps _).mp (hpieces ▸ reads_pieces _)
  have hresult : ∃ out, interpolate template a = .ok out :=
    exists_interpolate_eq_ok_iff.mpr (hpieces ▸ by decide)
  refine ⟨heq _ _ ⟨by decide, by decide⟩, hsucceeds a _ hresult fun name hname => ?_⟩
  rw [Bindings.get?_cons, Bindings.get?_cons, Bindings.get?_nil] at hname ⊢
  by_cases hB : "B" = name
  · by_cases hA : "A" = name <;> simp [hA, hB]
  · by_cases hA : "A" = name
    · simp [hA]
    · simp [hA, hB] at hname

end Interpolation
end DbImage
