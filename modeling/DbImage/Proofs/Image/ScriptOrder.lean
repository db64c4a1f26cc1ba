import DbImage.Proofs.Image.Scripts
import DbImage.Proofs.Number.Decimal

/-!
# The order in which scripts run

A container runs its scripts by file name.  The number in a script's name has no leading zeros, so
names are compared digit by digit from the left, and the eleventh script comes before the third:
scripts run in the order in which they were added exactly as long as there are at most ten.
-/

namespace DbImage

open Files (baseName)

/-- A common front does not matter to the order of texts. -/
theorem append_lt_append_left_iff (front s t : String) : front ++ s < front ++ t ↔ s < t := by
  rw [String.lt_iff, String.lt_iff, String.toList_append, String.toList_append]
  induction front.toList with
  | nil => exact Iff.rfl
  | cons c front ih => rw [List.cons_append, List.cons_append, List.cons_lt_cons_self, ih]

namespace Postgres

theorem scriptTarget_lt_iff_name (m n : Nat) :
    scriptTarget m < scriptTarget n ↔ scriptName m < scriptName n := by
  rw [scriptTarget_eq, scriptTarget_eq, append_lt_append_left_iff]

/-- Which of two scripts has the smaller name. -/
theorem scriptName_lt_iff {m n : Nat} (h : m < n) :
    scriptName m < scriptName n ↔
      m ≤ n / 10 ^ ((toString n).length - (toString m).length) := by
  have hdigits : ∀ k : Nat, (toString k).toList = Nat.toDigits 10 k := fun k => Nat.toList_repr
  have hlength : ∀ k : Nat, (toString k).length = (Nat.toDigits 10 k).length := fun k => by
    rw [← hdigits, String.length_toList]
  rw [scriptName, scriptName, String.append_assoc, String.append_assoc, append_lt_append_left_iff,
    String.lt_iff, String.toList_append, String.toList_append, hdigits, hdigits, hlength, hlength]
  exact Number.toDigits_append_lt_iff h (show '.' < '0' by decide) _ _

end Postgres

namespace StagedItem

/-- The order in which a container runs staged files: that of their names. -/
def runOrder (items : List StagedItem) : List StagedItem :=
  items.mergeSort fun a b => decide (baseName a.target ≤ baseName b.target)

theorem runOrder_eq_self_iff {items : List StagedItem} :
    runOrder items = items ↔
      items.Pairwise fun a b => baseName a.target ≤ baseName b.target := by
  constructor
  · intro h
    have hs := pairwise_key_le (fun item : StagedItem => baseName item.target) items
    rwa [← runOrder, h] at hs
  · exact fun h => List.mergeSort_of_pairwise (h.imp decide_eq_true)

end StagedItem

/-! ## Numbered scripts -/

section

open Postgres (scriptName scriptTarget scriptTarget_lt_iff_name scriptName_lt_iff)
open StagedItem (runOrder)

variable {items : List StagedItem} {scripts : List Source}

/-- Up to ten numbers have one digit each. From then on the third script and the eleventh are out of
order. -/
theorem forall_scriptName_lt_iff (count : Nat) :
    (∀ m n, m < n → n < count → scriptName m < scriptName n) ↔ count ≤ 10 := by
  constructor
  · intro h
    refine Nat.le_of_not_lt fun hcount => ?_
    have hlt := (scriptName_lt_iff (by decide)).mp (h 2 10 (by decide) hcount)
    exact absurd hlt (by decide)
  · intro hcount m n hmn hn
    have hdigit : ∀ k, k < 10 → (toString k).length = 1 := by decide
    rw [scriptName_lt_iff hmn, hdigit m (by omega), hdigit n (by omega)]
    simpa using Nat.le_of_lt hmn

theorem pairwise_target_lt_iff (h : items = scripts.mapIdx fun n s => ⟨scriptTarget n, s⟩) :
    (items.Pairwise fun a b => a.target < b.target) ↔ items.length ≤ 10 := by
  rw [← forall_scriptName_lt_iff, h, List.pairwise_iff_getElem]
  simp only [List.getElem_mapIdx, List.length_mapIdx, scriptTarget_lt_iff_name]
  exact ⟨fun hp m n hmn hn => hp m n (Nat.lt_trans hmn hn) hn hmn,
    fun hp m n _ hn hmn => hp m n hmn hn⟩

theorem runOrder_eq_self_iff_length (h : items = scripts.mapIdx fun n s => ⟨scriptTarget n, s⟩) :
    runOrder items = items ↔ items.length ≤ 10 := by
  rw [StagedItem.runOrder_eq_self_iff, ← forall_scriptName_lt_iff, h, List.pairwise_iff_getElem]
  simp only [List.getElem_mapIdx, List.length_mapIdx, Postgres.baseName_scriptTarget]
  refine ⟨fun hp m n hmn hn => ?_, fun hp m n _ hn hmn => ?_⟩
  · -- names of different numbers differ, so the order is strict
    refine String.not_le.mp fun hle => Nat.ne_of_lt hmn (Postgres.scriptName_inj ?_)
    exact String.le_antisymm (hp m n (Nat.lt_trans hmn hn) hn hmn) hle
  · exact String.not_lt.mp (String.lt_asymm (hp m n hmn hn))

end

namespace Image

open StagedItem (runOrder)

/-- Whatever calls made an image, its files are the scripts in call order, and a container runs them in
that order if there are at most ten of them and in another order if there are more. Of two scripts the
earlier one has the smaller target if its number is at most the later one's, cut down to as many
digits. -/
theorem runOrder_of_calls {k : ImageKind} {env : List (String × String)} {fsync : Bool}
    {cs : List BuilderCall} {i : Image} (h : (k.image ⟨env, [], fsync⟩).calls cs = .ok i) :
    i.contract.copies.map (·.source) = (Outline.ofCalls cs).sources ∧
    (∀ m n (hm : m < i.contract.copies.length) (hn : n < i.contract.copies.length), m < n →
      (i.contract.copies[m].target < i.contract.copies[n].target ↔
        m ≤ n / 10 ^ ((toString n).length - (toString m).length))) ∧
    ((i.contract.copies.Pairwise fun a b => a.target < b.target) ↔
      i.contract.copies.length ≤ 10) ∧
    (runOrder i.contract.copies = i.contract.copies ↔ i.contract.copies.length ≤ 10) := by
  have hcopies := copies_of_calls h
  refine ⟨?_, fun m n hm hn hmn => ?_, pairwise_target_lt_iff hcopies,
    runOrder_eq_self_iff_length hcopies⟩
  · rw [hcopies]
    refine List.ext_getElem (by simp) fun n _ _ => ?_
    simp only [List.getElem_map, List.getElem_mapIdx]
  · simp only [hcopies, List.getElem_mapIdx]
    rw [Postgres.scriptTarget_lt_iff_name, Postgres.scriptName_lt_iff hmn]

/-- Ten scripts among other calls run in the order in which they were added. -/
theorem runOrder_of_ten_calls :
    let cs : List BuilderCall :=
      .dbName "geo" :: (List.range 10).map (fun n => .initSql (.text (toString n))) ++ [.hostAuth]
    ∃ i, (ImageKind.postgis.image .default).calls cs = .ok i ∧
      runOrder i.contract.copies = i.contract.copies := by
  intro cs
  have hbuild : (ImageKind.postgis.image .default).calls cs = .ok _ := rfl
  exact ⟨_, hbuild, (runOrder_of_calls hbuild).2.2.2.mpr (by decide)⟩

/-- The eleventh script has a smaller target than the third one and runs before it. -/
theorem eleventh_script_out_of_order :
    let cs : List BuilderCall := (List.range 11).map fun n => .initSql (.text (toString n))
    ∃ i, (ImageKind.postgres.image .default).calls cs = .ok i ∧
      (∃ hm : 2 < i.contract.copies.length, ∃ hn : 10 < i.contract.copies.length,
        ¬ i.contract.copies[2].target < i.contract.copies[10].target) ∧
      runOrder i.contract.copies ≠ i.contract.copies := by
  intro cs
  have hbuild : (ImageKind.postgres.image .default).calls cs = .ok _ := rfl
  refine ⟨_, hbuild, ⟨by decide, by decide, by decide⟩, fun h => ?_⟩
  exact absurd ((runOrder_eq_self_iff_length (copies_of_calls hbuild)).mp h) (by decide)

end Image
end DbImage
