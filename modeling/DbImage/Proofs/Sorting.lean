/-!
# Sorting by a text

Variables and staged files are sorted by a text that each of them has, in code point order.
-/

namespace DbImage

variable {α : Type} (key : α → String)

theorem key_le_trans (a b c : α) (hab : decide (key a ≤ key b) = true)
    (hbc : decide (key b ≤ key c) = true) : decide (key a ≤ key c) = true :=
  decide_eq_true (String.le_trans (of_decide_eq_true hab) (of_decide_eq_true hbc))

theorem key_le_total (a b : α) : (decide (key a ≤ key b) || decide (key b ≤ key a)) = true := by
  simpa using String.le_total (key a) (key b)

theorem pairwise_key_le (as : List α) :
    (as.mergeSort fun a b => decide (key a ≤ key b)).Pairwise fun a b => key a ≤ key b :=
  (List.pairwise_mergeSort (key_le_trans key) (key_le_total key) as).imp of_decide_eq_true

/-- What agrees in the text that is sorted by keeps its order. -/
theorem filter_key_mergeSort (as : List α) (text : String) :
    (as.mergeSort fun a b => decide (key a ≤ key b)).filter (fun a => key a = text) =
      as.filter fun a => key a = text := by
  -- the filtered list is in order already, so the sorted one has it as a sublist
  have hsorted : (as.filter fun a => key a = text).Pairwise
      fun a b => decide (key a ≤ key b) = true := by
    refine List.pairwise_of_forall_mem_list fun a ha b hb => decide_eq_true ?_
    have ha : key a = text := of_decide_eq_true (List.mem_filter.mp ha).2
    have hb : key b = text := of_decide_eq_true (List.mem_filter.mp hb).2
    exact ha.trans hb.symm ▸ String.le_refl _
  have hsub := (List.sublist_mergeSort (key_le_trans key) (key_le_total key) hsorted
    List.filter_sublist).filter fun a => decide (key a = text)
  rw [List.filter_filter] at hsub
  simp only [Bool.and_self] at hsub
  have hlength := ((List.mergeSort_perm as fun a b => decide (key a ≤ key b)).filter
    fun a => decide (key a = text)).length_eq
  exact (hsub.eq_of_length hlength.symm).symm

end DbImage
