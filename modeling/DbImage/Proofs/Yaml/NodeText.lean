import DbImage.Proofs.Yaml.Misread
import DbImage.Yaml.Construction

/-!
# The text of a node

A mapping has the text of its value key, whose node may be a mapping again.  `HasText` follows these
keys as far as they lead.  A chain of them that comes to an end passes no node twice, so the number of
nodes bounds its length.
-/

namespace DbImage
namespace Yaml
namespace Graph

/-- `s` is the text of the node, or of the node that its value keys lead to. -/
inductive HasText (g : Graph) : NodeId → List CodePoint → Prop where
  | scalar {n : NodeId} {tag : Tag} {s : List CodePoint} :
    g.find n = .scalar tag s → HasText g n s
  | mapping {n k v : NodeId} {tag : Tag} {es : List (NodeId × NodeId)} {s : List CodePoint} :
    g.find n = .mapping tag es →
    (es.find? fun e => (g.find e.1).tag == .value) = some (k, v) → HasText g v s →
    HasText g n s

variable {g : Graph} {n : NodeId} {s : List CodePoint}

theorem lt_length_of_find_mapping {tag : Tag} {es : List (NodeId × NodeId)}
    (h : g.find n = .mapping tag es) : n < g.length := by
  refine Nat.lt_of_not_le fun hle => ?_
  rw [find, List.getElem?_eq_none hle] at h
  cases h

theorem textWithin_of_scalar {tag : Tag} (h : g.find n = .scalar tag s) (depth : Nat) :
    g.textWithin (depth + 1) n = .ok s := by
  rw [textWithin, h]

theorem textWithin_of_mapping {k v : NodeId} {tag : Tag} {es : List (NodeId × NodeId)}
    (h : g.find n = .mapping tag es)
    (hv : (es.find? fun e => (g.find e.1).tag == .value) = some (k, v)) (depth : Nat) :
    g.textWithin (depth + 1) n = g.textWithin depth v := by
  rw [textWithin, h]
  simp only
  rw [hv]

theorem hasText_of_textWithin {depth : Nat} (h : g.textWithin depth n = .ok s) :
    HasText g n s := by
  induction depth generalizing n with
  | zero => cases h
  | succ depth ih =>
    cases hn : g.find n with
    | scalar tag text =>
      rw [textWithin_of_scalar hn, Except.ok.injEq] at h
      exact .scalar (h ▸ hn)
    | sequence tag items =>
      rw [textWithin, hn] at h
      cases h
    | mapping tag es =>
      cases hv : es.find? fun e => (g.find e.1).tag == .value with
      | none =>
        rw [textWithin, hn] at h
        simp only [hv] at h
        cases h
      | some e =>
        rw [textWithin_of_mapping hn hv] at h
        exact .mapping hn hv (ih h)

theorem textWithin_mono {depth depth' : Nat} (hle : depth ≤ depth')
    (h : g.textWithin depth n = .ok s) : g.textWithin depth' n = .ok s := by
  have ht := hasText_of_textWithin h
  induction depth generalizing n depth' with
  | zero => cases h
  | succ depth ih =>
    obtain ⟨more, rfl⟩ : ∃ more, depth' = more + 1 := ⟨depth' - 1, by omega⟩
    cases ht with
    | scalar hn => exact textWithin_of_scalar hn more
    | mapping hn hv ht =>
      rw [textWithin_of_mapping hn hv] at h ⊢
      exact ih (by omega) h ht

/-- The mappings on the way to a text, each of which is as far from it as the ones after it are many.
Where the way comes back to a mapping, the part in between can be left out. -/
theorem HasText.exists_path (h : HasText g n s) :
    ∃ path : List NodeId, path.Nodup ∧ (∀ m ∈ path, m < g.length) ∧
      (∀ m rest, (m :: rest) <:+ path → g.textWithin (rest.length + 2) m = .ok s) ∧
      g.textWithin (path.length + 1) n = .ok s := by
  induction h with
  | scalar hn =>
    refine ⟨[], List.nodup_nil, by simp, fun m rest hm => ?_, textWithin_of_scalar hn 0⟩
    exact absurd (List.suffix_nil.mp hm) (List.cons_ne_nil _ _)
  | @mapping n k v tag es s hn hv _ ih =>
    obtain ⟨path, hnodup, hlt, hsuffix, htext⟩ := ih
    by_cases hmem : n ∈ path
    · obtain ⟨front, rest, rfl⟩ := List.append_of_mem hmem
      have hrest : n :: rest <:+ front ++ n :: rest := List.suffix_append _ _
      refine ⟨n :: rest, hnodup.sublist hrest.sublist, fun m hm => hlt m (hrest.subset hm),
        fun m rest' hm => hsuffix m rest' (hm.trans hrest), ?_⟩
      exact hsuffix n rest hrest
    · have htext' : g.textWithin (path.length + 2) n = .ok s := by
        rw [textWithin_of_mapping hn hv]
        exact htext
      refine ⟨n :: path, List.nodup_cons.mpr ⟨hmem, hnodup⟩, ?_, fun m rest hm => ?_, htext'⟩
      · exact List.forall_mem_cons.mpr ⟨lt_length_of_find_mapping hn, hlt⟩
      · rcases List.suffix_cons_iff.mp hm with he | hm
        · obtain ⟨rfl, rfl⟩ := List.cons.inj he
          exact htext'
        · exact hsuffix m rest hm

theorem textWithin_eq_ok_iff : g.textWithin (g.length + 1) n = .ok s ↔ HasText g n s := by
  refine ⟨hasText_of_textWithin, fun h => ?_⟩
  obtain ⟨path, hnodup, hlt, -, htext⟩ := h.exists_path
  have hsub : path ⊆ List.range g.length := fun m hm => List.mem_range.mpr (hlt m hm)
  have hlen := hnodup.length_le_of_subset hsub
  rw [List.length_range] at hlen
  exact textWithin_mono (by omega) htext

theorem textWithin_eq_error {depth : Nat} {f : Fault} (h : g.textWithin depth n = .error f) :
    f = .malformed := by
  induction depth generalizing n with
  | zero => exact (Except.error.inj h).symm
  | succ depth ih =>
    unfold textWithin at h
    split at h
    · cases h
    · exact (Except.error.inj h).symm
    · split at h
      · exact ih h
      · exact (Except.error.inj h).symm

end Graph

/-! ## Nodes that cannot be what their tags say -/

namespace Value.MisreadText

variable {tag : Tag} {s : List CodePoint} {f : Fault}

theorem tag_mem (h : MisreadText tag s f) : tag ∈ [.bool, .int, .float, .timestamp] := by
  cases h with
  | chars h => cases h <;> decide
  | looseWord _ => decide
  | looseDate _ => decide

theorem not_isCollection (h : MisreadText tag s f) : tag.isCollection = false := by
  have htag := h.tag_mem
  revert htag
  cases tag <;> decide

theorem tag_ne (h : MisreadText tag s f) : tag ≠ .merge ∧ tag ≠ .value ∧ tag ≠ .other := by
  have htag := h.tag_mem
  revert htag
  cases tag <;> decide

end Value.MisreadText

namespace Graph

variable {g : Graph} {n : NodeId} {s : List CodePoint}

/-- How a node has no value, where this is no matter of format or value. -/
inductive Misread (g : Graph) (n : NodeId) : Fault → Prop where
  | text {s : List CodePoint} {f : Fault} :
    HasText g n s → (∀ es, g.find n ≠ .mapping .timestamp es) →
    Value.MisreadText (g.find n).tag s f → Misread g n f
  /-- A mapping under the tag of dates, even where its text is one. -/
  | dateOfMapping {s : List CodePoint} {es : List (NodeId × NodeId)} :
    HasText g n s → g.find n = .mapping .timestamp es → Misread g n .wrongShape

theorem Misread.not_isReported {f : Fault} (h : Misread g n f) : f.isReported = false := by
  cases h with
  | text _ _ h => exact h.not_isReported
  | dateOfMapping => rfl

theorem Misread.not_isCollection {f : Fault} (h : Misread g n f) :
    (g.find n).tag.isCollection = false := by
  cases h with
  | text _ _ h => exact h.not_isCollection
  | dateOfMapping _ hn =>
    rw [hn]
    rfl

theorem scalar_of_hasText (hs : HasText g n s) (hmerge : (g.find n).tag ≠ .merge)
    (hvalue : (g.find n).tag ≠ .value) (hother : (g.find n).tag ≠ .other) :
    g.scalar n = match (g.find n).tag, g.find n with
      | .timestamp, .mapping _ _ => .error .wrongShape
      | tag, _ => Value.ofText tag s := by
  rw [scalar, textWithin_eq_ok_iff.mpr hs]
  simp only [hmerge, hvalue, hother, or_self, if_false]
  rfl

/-- A node that is not malformed has a text, and a tag that a text can be read under. -/
theorem hasText_of_scalar (h : g.scalar n ≠ .error .malformed) :
    (∃ s, HasText g n s) ∧ (g.find n).tag ≠ .merge ∧ (g.find n).tag ≠ .value ∧
      (g.find n).tag ≠ .other := by
  by_cases htag : (g.find n).tag = .merge ∨ (g.find n).tag = .value ∨ (g.find n).tag = .other
  · rw [scalar] at h
    simp only [htag, if_true] at h
    exact absurd rfl h
  simp only [not_or] at htag
  cases ht : g.textWithin (g.length + 1) n with
  | error f =>
    obtain rfl := textWithin_eq_error ht
    rw [scalar, ht] at h
    simp only [htag, or_self, if_false] at h
    exact absurd rfl h
  | ok s => exact ⟨⟨s, textWithin_eq_ok_iff.mp ht⟩, htag⟩

theorem scalar_eq_error_iff {f : Fault} (hf : f.isReported = false) :
    g.scalar n = .error f ↔ Misread g n f := by
  constructor
  · intro h
    have hne : g.scalar n ≠ .error .malformed := by
      intro e
      exact Fault.ne_malformed hf (Except.error.inj (h.symm.trans e))
    obtain ⟨⟨s, hs⟩, hmerge, hvalue, hother⟩ := hasText_of_scalar hne
    rw [scalar_of_hasText hs hmerge hvalue hother] at h
    split at h
    · rename_i tag es htime hn
      obtain rfl := Except.error.inj h
      rw [hn] at htime
      obtain rfl : tag = .timestamp := htime
      exact .dateOfMapping hs hn
    · rename_i hmap
      refine .text hs (fun es hn => ?_) ((Value.ofText_eq_error_iff hf).mp h)
      exact hmap _ es (by rw [hn]; rfl) hn
  · intro h
    cases h with
    | text hs hmap h =>
      obtain ⟨hmerge, hvalue, hother⟩ := h.tag_ne
      rw [scalar_of_hasText hs hmerge hvalue hother]
      split
      · rename_i tag es htime hn
        rw [hn] at htime
        obtain rfl : tag = .timestamp := htime
        exact absurd hn (hmap es)
      · exact (Value.ofText_eq_error_iff hf).mpr h
    | dateOfMapping hs hn =>
      have htag : (g.find n).tag = .timestamp := by
        rw [hn]
        rfl
      rw [scalar_of_hasText hs (by simp [htag]) (by simp [htag]) (by simp [htag]), hn]
      rfl

end Graph
end Yaml
end DbImage
