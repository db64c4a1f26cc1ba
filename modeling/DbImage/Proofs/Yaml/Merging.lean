import DbImage.Yaml.Construction

/-!
# What merging does to the nodes

Merging gives mappings new entries and value keys a new tag.  No node is added or lost, and what
cannot be merged is malformed.
-/

namespace DbImage
namespace Yaml
namespace Graph

@[simp]
theorem length_setEntries (g : Graph) (n : NodeId) (es : List (NodeId × NodeId)) :
    (g.setEntries n es).length = g.length := by
  rw [setEntries, List.length_set]

@[simp]
theorem length_setTag (g : Graph) (n : NodeId) (t : Tag) : (g.setTag n t).length = g.length := by
  rw [setTag, List.length_set]

/-- The outcome has as many nodes as there are in `g`, or the nodes are malformed. -/
structure Keeps {α : Type} (g : Graph) (nodes : α → Graph) (x : Except Fault α) : Prop where
  length : ∀ a, x = .ok a → (nodes a).length = g.length
  fault : ∀ f, x = .error f → f = .malformed

section

variable {α β : Type} {g g' : Graph} {nodes : α → Graph} {nodes' : β → Graph}

theorem Keeps.ok {a : α} (h : (nodes a).length = g.length) : Keeps g nodes (.ok a) :=
  ⟨fun _ e => Except.ok.inj e ▸ h, fun _ e => (nomatch e)⟩

theorem Keeps.malformed : Keeps g nodes (.error .malformed) :=
  ⟨fun _ e => (nomatch e), fun _ e => (Except.error.inj e).symm⟩

theorem Keeps.of_length (h : g'.length = g.length) {x : Except Fault α} (hx : Keeps g' nodes x) :
    Keeps g nodes x :=
  ⟨fun a e => (hx.length a e).trans h, hx.fault⟩

theorem Keeps.bind {x : Except Fault α} {k : α → Except Fault β} (hx : Keeps g nodes x)
    (hk : ∀ a, x = .ok a → Keeps (nodes a) nodes' (k a)) : Keeps g nodes' (x >>= k) := by
  cases x with
  | ok a => exact (hk a rfl).of_length (hx.length a rfl)
  | error f =>
    obtain rfl := hx.fault f rfl
    exact Keeps.malformed

end

variable {nested : NodeId → Graph → Except Fault Graph}

theorem keeps_mergedEntries (hnested : ∀ n g, Keeps g id (nested n g)) (ns : List NodeId)
    (g : Graph) : Keeps g Prod.snd (mergedEntries nested ns g) := by
  induction ns generalizing g with
  | nil => exact Keeps.ok rfl
  | cons n rest ih =>
    rw [mergedEntries]
    split
    · refine (hnested n g).bind fun g' _ => ?_
      refine (ih g').bind fun (others, g'') _ => ?_
      exact Keeps.ok rfl
    · exact Keeps.malformed

theorem mergeSources_eq_error {g : Graph} {n : NodeId} {f : Fault}
    (h : g.mergeSources n = .error f) : f = .malformed := by
  unfold mergeSources at h
  split at h
  · cases h
  · cases h
  · exact (Except.error.inj h).symm

theorem keeps_flattenEntries (hnested : ∀ n g, Keeps g id (nested n g)) (n : NodeId)
    (es kept merged : List (NodeId × NodeId)) (g : Graph) :
    Keeps g id (flattenEntries nested n es kept merged g) := by
  induction es generalizing kept merged g with
  | nil => exact Keeps.ok (length_setEntries g n _)
  | cons e rest ih =>
    obtain ⟨k, v⟩ := e
    rw [flattenEntries]
    split
    · -- the sources are named in the graph without the merge key
      have hset := length_setEntries g n (kept ++ rest)
      generalize g.setEntries n (kept ++ rest) = g₁ at hset
      dsimp only
      cases hs : g₁.mergeSources v with
      | error f =>
        obtain rfl := mergeSources_eq_error hs
        exact Keeps.malformed
      | ok sources =>
        refine Keeps.of_length hset ?_
        refine (keeps_mergedEntries hnested sources g₁).bind fun (added, g₂) _ => ?_
        dsimp only
        split
        · exact ih kept (merged ++ added) g₂
        · exact Keeps.ok (length_setEntries g₂ n _)
    · exact (ih _ _ _).of_length (length_setTag g k .str)
    · exact ih _ _ _

theorem keeps_flattenWithin (depth : Nat) (n : NodeId) (g : Graph) :
    Keeps g id (flattenWithin depth n g) := by
  induction depth generalizing n g with
  | zero => exact Keeps.ok rfl
  | succ depth ih => exact keeps_flattenEntries ih n _ _ _ g

theorem length_flatten {g g' : Graph} {n : NodeId} (h : g.flatten n = .ok g') :
    g'.length = g.length :=
  (keeps_flattenWithin _ n g).length g' h

theorem flatten_eq_error {g : Graph} {n : NodeId} {f : Fault} (h : g.flatten n = .error f) :
    f = .malformed :=
  (keeps_flattenWithin _ n g).fault f h

end Graph
end Yaml
end DbImage
