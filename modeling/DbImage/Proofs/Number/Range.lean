import DbImage.Number.Double

/-!
# The range of floating point

A whole number below `2 ^ 1023` is near some double and one from `2 ^ 1024` on is not.  Between the
powers of sixty there is room to spare: the 173rd is within the range and the 174th beyond it.
-/

namespace DbImage
namespace Number
namespace Double

theorem floorLog2_one {n : Nat} (hn : n ≠ 0) : floorLog2 n 1 = n.log2 := by
  have hone : Nat.log2 1 = 0 := by decide
  have hle : 2 ^ n.log2 ≤ n := Nat.log2_self_le hn
  unfold floorLog2
  rw [hone]
  dsimp only
  rw [if_pos]
  · omega
  · have hpos : ((n.log2 : Int) - (0 : Nat)).toNat = n.log2 := by omega
    have hneg : (-((n.log2 : Int) - (0 : Nat))).toNat = 0 := by omega
    rw [hpos, hneg, Nat.one_mul, Nat.pow_zero, Nat.mul_one]
    exact hle

/-- A whole number rounds to the mantissa of its leading bits, whatever its sign. -/
theorem ofRatio_one {n : Nat} (hn : n ≠ 0) :
    ∃ m e, (e = (n.log2 : Int) - 52 ∨ e = (n.log2 : Int) - 51) ∧
      ofRatio false n 1 = if greatestExponent < e then .infinite false else .finite false m e := by
  have hmax : max ((n.log2 : Int) - (precision - 1 : Nat)) leastExponent = (n.log2 : Int) - 52 := by
    show max ((n.log2 : Int) - 52) (-1074) = (n.log2 : Int) - 52
    omega
  unfold ofRatio
  rw [if_neg hn, floorLog2_one hn, hmax]
  dsimp only
  generalize roundDiv _ _ = r
  by_cases hr : r = 2 ^ precision
  · rw [if_pos hr]
    exact ⟨_, _, Or.inr (by omega), rfl⟩
  · rw [if_neg hr]
    exact ⟨_, _, Or.inl rfl, rfl⟩

theorem ofInt?_natCast (n : Nat) :
    ofInt? (n : Int) = match ofRatio false n 1 with
      | .infinite _ => none
      | x => some x := by
  have hneg : decide ((n : Int) < 0) = false := decide_eq_false (by omega)
  show (match ofRatio (decide ((n : Int) < 0)) (n : Int).natAbs 1 with
    | .infinite _ => none
    | x => some x) = _
  rw [hneg, Int.natAbs_natCast]

theorem ofInt?_eq_none_of_le {n : Nat} (h : 2 ^ 1024 ≤ n) : ofInt? (n : Int) = none := by
  have hn : n ≠ 0 := by
    intro e
    subst e
    exact absurd h (by decide +kernel)
  have hlog : 1024 ≤ n.log2 := (Nat.le_log2 hn).mpr h
  obtain ⟨m, e, he, hround⟩ := ofRatio_one hn
  have hbig : greatestExponent < e := by
    show (971 : Int) < e
    omega
  rw [ofInt?_natCast, hround, if_pos hbig]

theorem ofInt?_isSome_of_lt {n : Nat} (h : n < 2 ^ 1023) : (ofInt? (n : Int)).isSome = true := by
  rw [ofInt?_natCast]
  by_cases hn : n = 0
  · subst hn
    rfl
  · have hlog : n.log2 < 1023 := (Nat.log2_lt hn).mpr h
    obtain ⟨m, e, he, hround⟩ := ofRatio_one hn
    have hsmall : ¬ greatestExponent < e := by
      show ¬ (971 : Int) < e
      omega
    rw [hround, if_neg hsmall]
    rfl

/-- The powers of sixty that are within the range. -/
theorem ofInt?_sixty_pow (k : Nat) : (ofInt? ((60 ^ k : Nat) : Int)).isSome = decide (k < 174) := by
  by_cases hk : k < 174
  · have hle : 60 ^ k ≤ 60 ^ 173 := Nat.pow_le_pow_right (by decide) (by omega)
    have hlt : 60 ^ 173 < 2 ^ 1023 := by decide +kernel
    rw [ofInt?_isSome_of_lt (Nat.lt_of_le_of_lt hle hlt), decide_eq_true hk]
  · have hle : 60 ^ 174 ≤ 60 ^ k := Nat.pow_le_pow_right (by decide) (by omega)
    have hlt : 2 ^ 1024 ≤ 60 ^ 174 := by decide +kernel
    rw [ofInt?_eq_none_of_le (Nat.le_trans hlt hle), decide_eq_false hk]
    rfl

end Double
end Number
end DbImage
