import DbImage.Number.Reading
import DbImage.Proofs.Number.Decimal

/-!
# Numerals

A numeral is a run of ASCII digits.  `intOfText?_of_isDigit` gives its value in the base that it is
read in.  To write the value down in base ten gives the numeral back if it was read in base ten and
starts with no zero (`toDigits_valueOf`); a longer numeral that starts with zero is the text of no
number (`toDigits_ne_of_zero`).
-/

namespace DbImage
namespace Number

/-! ## Digits -/

theorem hexValue?_of_isDigit {c : Char} (h : c.isDigit = true) :
    hexValue? c = some (c.toNat - 48) := by
  obtain ⟨hlow, hhigh⟩ := Char.isDigit_iff_toNat.mp h
  exact if_pos ⟨hlow, hhigh⟩

theorem isDigitIn_ten_of_isDigit {c : Char} (h : c.isDigit = true) : isDigitIn 10 c = true := by
  have hhigh : c.toNat ≤ 57 := (Char.isDigit_iff_toNat.mp h).2
  rw [isDigitIn, hexValue?_of_isDigit h, Option.any_some, decide_eq_true_eq]
  omega

theorem digitChar_of_isDigit {c : Char} (h : c.isDigit = true) :
    Nat.digitChar (c.toNat - 48) = c := by
  have hlow : 48 ≤ c.toNat := (Char.isDigit_iff_toNat.mp h).1
  have hhigh : c.toNat ≤ 57 := (Char.isDigit_iff_toNat.mp h).2
  apply Char.toNat_inj.mp
  rw [Nat.toNat_digitChar_of_lt_ten (by omega)]
  omega

/-! ## Values -/

/-- A run of digits is worth less than one with one digit more. -/
theorem valueOf_lt {base : Nat} {digits : List Char} (h : digits.all (isDigitIn base) = true) :
    valueOf base digits < base ^ digits.length := by
  have hfold : ∀ n, digits.foldl (fun n c => n * base + (hexValue? c).getD 0) n <
      (n + 1) * base ^ digits.length := by
    induction digits with
    | nil =>
      intro n
      simp
    | cons c digits ih =>
      intro n
      rw [List.all_cons, Bool.and_eq_true] at h
      have hc : (hexValue? c).getD 0 < base := by
        have hdigit := h.1
        unfold isDigitIn at hdigit
        cases hv : hexValue? c with
        | none => simp [hv] at hdigit
        | some d => simpa [hv] using hdigit
      have hle : n * base + (hexValue? c).getD 0 + 1 ≤ (n + 1) * base := by
        rw [Nat.succ_mul]
        omega
      rw [List.foldl_cons, List.length_cons, Nat.pow_succ', ← Nat.mul_assoc]
      exact Nat.lt_of_lt_of_le (ih h.2 _) (Nat.mul_le_mul_right _ hle)
  simpa [valueOf] using hfold 0

/-- Digits after a number are the digits of the number that they make of it. -/
theorem toDigits_append {digits : List Char} (h : digits.all Char.isDigit = true) {n : Nat}
    (hn : 0 < n) :
    Nat.toDigits 10 n ++ digits =
      Nat.toDigits 10 (digits.foldl (fun n c => n * 10 + (hexValue? c).getD 0) n) := by
  induction digits generalizing n with
  | nil => exact List.append_nil _
  | cons c digits ih =>
    rw [List.all_cons, Bool.and_eq_true] at h
    have hlow : 48 ≤ c.toNat := (Char.isDigit_iff_toNat.mp h.1).1
    have hhigh : c.toNat ≤ 57 := (Char.isDigit_iff_toNat.mp h.1).2
    have hlast : Nat.toDigits 10 n ++ [c] = Nat.toDigits 10 (n * 10 + (c.toNat - 48)) := by
      have hd : c.toNat - 48 < 10 := by omega
      have := Nat.toDigits_append_toDigits (by decide) hn hd
      rwa [Nat.toDigits_of_lt_base hd, digitChar_of_isDigit h.1, Nat.mul_comm] at this
    rw [List.foldl_cons, hexValue?_of_isDigit h.1, Option.getD_some, ← ih h.2 (by omega), ← hlast,
      List.append_assoc, List.singleton_append]

/-- A numeral without a zero in front is the text of its value. -/
theorem toDigits_valueOf {c : Char} {digits : List Char} (hc : c.isDigit = true) (h0 : c ≠ '0')
    (h : digits.all Char.isDigit = true) :
    Nat.toDigits 10 (valueOf 10 (c :: digits)) = c :: digits := by
  have hlow : 48 ≤ c.toNat := (Char.isDigit_iff_toNat.mp hc).1
  have hhigh : c.toNat ≤ 57 := (Char.isDigit_iff_toNat.mp hc).2
  have hne : c.toNat ≠ 48 := fun e => h0 (Char.toNat_inj.mp e)
  have hfirst : valueOf 10 (c :: digits) =
      digits.foldl (fun n c => n * 10 + (hexValue? c).getD 0) (c.toNat - 48) := by
    rw [valueOf, List.foldl_cons, hexValue?_of_isDigit hc, Option.getD_some, Nat.zero_mul,
      Nat.zero_add]
  rw [hfirst, ← toDigits_append h (by omega), Nat.toDigits_of_lt_base (by omega),
    digitChar_of_isDigit hc, List.singleton_append]

/-- No positive number is written with a zero in front. -/
theorem head?_toDigits_ne_zero {n : Nat} (hn : 0 < n) : (Nat.toDigits 10 n).head? ≠ some '0' := by
  induction n using Nat.strongRecOn with
  | ind n ih =>
    by_cases hlt : n < 10
    · have hdigit : ∀ m < 10, 0 < m → [Nat.digitChar m].head? ≠ some '0' := by decide
      rw [Nat.toDigits_of_lt_base hlt]
      exact hdigit n hlt hn
    · have hten : 10 ≤ n := Nat.le_of_not_lt hlt
      have hfront : (Nat.toDigits 10 n).head? = (Nat.toDigits 10 (n / 10)).head? := by
        rw [toDigits_of_ten_le hten, List.head?_append]
        cases hd : Nat.toDigits 10 (n / 10) with
        | nil => exact absurd hd Nat.toDigits_ne_nil
        | cons d ds => rfl
      rw [hfront]
      exact ih (n / 10) (by omega) (by omega)

theorem toDigits_ne_of_zero {c : Char} {digits : List Char} (n : Nat) :
    Nat.toDigits 10 n ≠ '0' :: c :: digits := by
  intro h
  rcases Nat.eq_zero_or_pos n with rfl | hn
  · cases h
  · exact head?_toDigits_ne_zero hn (by rw [h]; rfl)

/-- A number below a power of the base has no more digits than the exponent says. -/
theorem length_repr_le {n k : Nat} (hk : 0 < k) (h : n < 10 ^ k) : (Nat.repr n).length ≤ k := by
  rw [Nat.repr_eq_ofList_toDigits, String.length_ofList]
  exact (Nat.length_toDigits_le_iff (by decide) hk).mpr h

theorem digitLimit_lt_length_iff (n : Nat) :
    digitLimit < (Nat.repr n).length ↔ 10 ^ digitLimit ≤ n := by
  have hlength : (Nat.repr n).length = (Nat.toDigits 10 n).length := String.length_ofList
  rw [hlength, ← Nat.not_le, Nat.length_toDigits_le_iff (by decide) (by decide), Nat.not_lt]

/-! ## Reading -/

theorem dropWhile_of_forall_eq_false {p : Char → Bool} {s : List Char} (h : ∀ c ∈ s, p c = false) :
    s.dropWhile p = s := by
  cases s with
  | nil => rfl
  | cons c s => rw [List.dropWhile_cons, h c List.mem_cons_self, if_neg Bool.false_ne_true]

/-- In a numeral there is nothing to unify and nothing to trim. -/
theorem plain_of_isDigit {s : List Char} (h : s.all Char.isDigit = true) : plain s = s := by
  have hdigit : ∀ c ∈ s, 48 ≤ c.toNat ∧ c.toNat ≤ 57 := fun c hc =>
    Char.isDigit_iff_toNat.mp (List.all_eq_true.mp h c hc)
  have hmap : s.map plainChar = s := by
    refine (List.map_congr_left fun c hc => ?_).trans (List.map_id s)
    have := hdigit c hc
    exact if_pos (by omega)
  have hblank : ∀ c ∈ s, isPlainBlank c = false := by
    intro c hc
    have := hdigit c hc
    have hspace : c ≠ ' ' := by
      rintro rfl
      exact absurd this (by decide)
    simp only [isPlainBlank, beq_eq_false_iff_ne.mpr hspace, Bool.false_or, Bool.and_eq_false_iff,
      decide_eq_false_iff_not]
    omega
  rw [plain, hmap, Text.trim, dropWhile_of_forall_eq_false hblank,
    dropWhile_of_forall_eq_false fun c hc => hblank c (List.mem_reverse.mp hc), List.reverse_reverse]

theorem toLower_of_isDigit {c : Char} (h : c.isDigit = true) : c.toLower = c := by
  have hhigh : c.toNat ≤ 57 := (Char.isDigit_iff_toNat.mp h).2
  unfold Char.toLower
  rw [dif_neg]
  rintro ⟨hupper, -⟩
  have hlow : 65 ≤ c.toNat := hupper
  omega

/-- No mark of a base is a digit. -/
theorem dropBaseMark_of_isDigit (base : Nat) {s : List Char} (h : s.all Char.isDigit = true) :
    dropBaseMark base s = s := by
  unfold dropBaseMark
  split
  · rename_i c rest
    have hc : c.isDigit = true := List.all_eq_true.mp h c (by simp)
    have hmark : baseMark? base ≠ some c.toLower := by
      rw [toLower_of_isDigit hc]
      intro hb
      unfold baseMark? at hb
      split at hb <;> cases hb <;> revert hc <;> decide
    rw [if_neg hmark]
  · rfl

theorem intOfText?_of_isDigit {base : Nat} {s : List Char} (hs : s ≠ [])
    (h : s.all Char.isDigit = true) (hbase : s.all (isDigitIn base) = true)
    (hlen : s.length ≤ digitLimit) : intOfText? base s = some ((valueOf base s : Nat) : Int) := by
  have hne : ∀ d : Char, d.isDigit = false → d ∉ s := by
    intro d hd hmem
    rw [List.all_eq_true.mp h d hmem] at hd
    cases hd
  have hsign : splitSign s = (false, s) := by
    unfold splitSign
    split
    · exact absurd List.mem_cons_self (hne '-' rfl)
    · exact absurd List.mem_cons_self (hne '+' rfl)
    · rfl
  have hempty : s.isEmpty = false := List.isEmpty_eq_false_iff.mpr hs
  have hlimit : ¬ (base = 10 && digitLimit < s.length) = true := by
    simp only [Bool.and_eq_true, decide_eq_true_eq, not_and, Nat.not_lt]
    exact fun _ => hlen
  rw [intOfText?, plain_of_isDigit h, hsign]
  simp only [dropBaseMark_of_isDigit base h, dropSeparators?_of_not_mem _ _ s (hne '_' rfl), hempty,
    hbase, Bool.not_true, Bool.or_false, if_neg hlimit, bind, Option.bind, pure, if_false,
    Bool.false_eq_true]

end Number
end DbImage
