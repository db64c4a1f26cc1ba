/-!
# Decimal texts in lexicographic order

Texts are compared from the left, so numbers written without leading zeros are in order only while
they have equally many digits.  `toDigits_append_lt_iff` says which of two numbers comes first when
both are followed by a character below the digits.
-/

namespace DbImage
namespace Number

theorem digitChar_lt_digitChar {m n : Nat} (h : m < n) (hn : n < 10) :
    m.digitChar < n.digitChar := by
  rw [Char.lt_def, UInt32.lt_iff_toNat_lt]
  show m.digitChar.toNat < n.digitChar.toNat
  rw [Nat.toNat_digitChar_of_lt_ten (by omega), Nat.toNat_digitChar_of_lt_ten hn]
  omega

theorem toDigits_of_ten_le {n : Nat} (h : 10 ≤ n) :
    Nat.toDigits 10 n = Nat.toDigits 10 (n / 10) ++ [(n % 10).digitChar] :=
  Nat.toDigits_of_base_le (by decide) h

theorem length_toDigits_of_lt_ten {n : Nat} (h : n < 10) : (Nat.toDigits 10 n).length = 1 := by
  rw [Nat.toDigits_of_lt_base h]
  rfl

theorem length_toDigits_of_ten_le {n : Nat} (h : 10 ≤ n) :
    (Nat.toDigits 10 n).length = (Nat.toDigits 10 (n / 10)).length + 1 := by
  rw [toDigits_of_ten_le h, List.length_append]
  rfl

/-- Numbers with equally many digits are in the order of their digits, whatever follows these. -/
theorem toDigits_append_lt {m n : Nat} (hmn : m < n)
    (hlen : (Nat.toDigits 10 m).length = (Nat.toDigits 10 n).length) (s t : List Char) :
    Nat.toDigits 10 m ++ s < Nat.toDigits 10 n ++ t := by
  induction n using Nat.strongRecOn generalizing m s t with
  | ind n ih =>
    by_cases hn : n < 10
    · rw [Nat.toDigits_of_lt_base hn, Nat.toDigits_of_lt_base (Nat.lt_trans hmn hn)]
      exact List.cons_lt_cons_iff.mpr (Or.inl (digitChar_lt_digitChar hmn hn))
    · have hten : 10 ≤ n := Nat.le_of_not_lt hn
      rw [length_toDigits_of_ten_le hten] at hlen
      have hm : 10 ≤ m := by
        refine Nat.le_of_not_lt fun hm => ?_
        have hpos : 0 < (Nat.toDigits 10 (n / 10)).length := Nat.length_toDigits_pos
        rw [length_toDigits_of_lt_ten hm] at hlen
        omega
      rw [length_toDigits_of_ten_le hm] at hlen
      rw [toDigits_of_ten_le hten, toDigits_of_ten_le hm, List.append_assoc, List.append_assoc]
      by_cases hfront : m / 10 < n / 10
      · exact ih (n / 10) (by omega) hfront (by omega) _ _
      · -- the fronts are equal, so the last digits decide
        have hlast : m % 10 < n % 10 := by omega
        have hsame : m / 10 = n / 10 := by omega
        rw [hsame]
        refine List.append_left_lt (List.cons_lt_cons_iff.mpr (Or.inl ?_))
        exact digitChar_lt_digitChar hlast (by omega)

/-- Dropping the last `d` digits divides by the power of ten. -/
theorem exists_toDigits_eq_append {d n : Nat} (h : 10 ^ d ≤ n) :
    ∃ last, Nat.toDigits 10 n = Nat.toDigits 10 (n / 10 ^ d) ++ last ∧ last.length = d ∧
      ∀ c ∈ last, '0' ≤ c := by
  induction d with
  | zero => exact ⟨[], by simp, rfl, by simp⟩
  | succ d ih =>
    have hpos : 0 < 10 ^ d := Nat.pow_pos (by decide)
    rw [Nat.pow_succ] at h
    obtain ⟨last, hlast, hlen, hdigit⟩ := ih (by omega)
    have hten : 10 ≤ n / 10 ^ d := (Nat.le_div_iff_mul_le hpos).mpr (by omega)
    refine ⟨(n / 10 ^ d % 10).digitChar :: last, ?_, by simp [hlen], ?_⟩
    · rw [hlast, toDigits_of_ten_le hten, Nat.div_div_eq_div_mul, ← Nat.pow_succ,
        List.append_assoc]
      rfl
    · rw [List.forall_mem_cons]
      refine ⟨?_, hdigit⟩
      rw [Char.le_def, UInt32.le_iff_toNat_le]
      show ('0' : Char).toNat ≤ (n / 10 ^ d % 10).digitChar.toNat
      rw [Nat.toNat_digitChar_of_lt_ten (Nat.mod_lt _ (by decide))]
      exact Nat.le_add_right _ _

theorem pow_le_of_lt_length {d n : Nat} (hn : 0 < n) (h : d < (Nat.toDigits 10 n).length) :
    10 ^ d ≤ n := by
  cases d with
  | zero => exact hn
  | succ d =>
    refine Nat.le_of_not_lt fun hlt => ?_
    have := (Nat.length_toDigits_le_iff (b := 10) (by decide) (Nat.succ_pos d)).mpr hlt
    omega

/-- Followed by a character below the digits, the smaller number comes first exactly if it is at most
the larger one cut down to as many digits. -/
theorem toDigits_append_lt_iff {m n : Nat} (hmn : m < n) {stop : Char} (hstop : stop < '0')
    (s t : List Char) :
    Nat.toDigits 10 m ++ stop :: s < Nat.toDigits 10 n ++ stop :: t ↔
      m ≤ n / 10 ^ ((Nat.toDigits 10 n).length - (Nat.toDigits 10 m).length) := by
  generalize hd : (Nat.toDigits 10 n).length - (Nat.toDigits 10 m).length = d
  have hpos : 0 < (Nat.toDigits 10 m).length := Nat.length_toDigits_pos
  have hle : (Nat.toDigits 10 m).length ≤ (Nat.toDigits 10 n).length := by
    rw [Nat.length_toDigits_le_iff (by decide) Nat.length_toDigits_pos]
    exact Nat.lt_trans hmn ((Nat.length_toDigits_le_iff (by decide) Nat.length_toDigits_pos).mp
      (Nat.le_refl _))
  obtain ⟨last, hn, hlast, hdigit⟩ :=
    exists_toDigits_eq_append (pow_le_of_lt_length (d := d) (n := n) (by omega) (by omega))
  have hlen : (Nat.toDigits 10 m).length = (Nat.toDigits 10 (n / 10 ^ d)).length := by
    have := congrArg List.length hn
    rw [List.length_append] at this
    omega
  rw [hn, List.append_assoc]
  rcases Nat.lt_trichotomy m (n / 10 ^ d) with hlt | heq | hgt
  · exact iff_of_true (toDigits_append_lt hlt hlen _ _) (Nat.le_of_lt hlt)
  · refine iff_of_true ?_ (Nat.le_of_eq heq)
    rw [heq]
    refine List.append_left_lt ?_
    -- the larger number goes on with a digit where the smaller one has ended
    cases last with
    | nil =>
      have : d = 0 := hlast.symm
      subst this
      simp at heq
      omega
    | cons c last =>
      have hc : '0' ≤ c := hdigit c List.mem_cons_self
      exact List.cons_lt_cons_iff.mpr (Or.inl (UInt32.lt_of_lt_of_le hstop hc))
  · refine iff_of_false (fun h => ?_) (Nat.not_le.mpr hgt)
    exact List.lt_asymm h (toDigits_append_lt hgt hlen.symm _ _)

end Number
end DbImage
