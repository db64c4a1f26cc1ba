import DbImage.Proofs.Number.Numeral
import DbImage.Yaml.Scalar.Value

/-!
# Numerals as scalars

A plain scalar of ASCII digits is a whole number in one of two bases or text.  A zero in front of
octal digits means base eight.  A zero in front of anything else makes the numeral no number, so it
stays text, and every other numeral is decimal.  `IsNumeral.ofChars_tagOf` has the value in each case.
-/

namespace DbImage
namespace Yaml

open Number (digitLimit intOfText? isDigitIn valueOf)

/-- A run of ASCII digits. -/
structure IsNumeral (d : List Char) : Prop where
  ne_nil : d ≠ []
  digits : d.all Char.isDigit = true

/-- A numeral that is read to base eight. -/
def isOctal : List Char → Bool
  | '0' :: c :: rest => (c :: rest).all (isDigitIn 8)
  | _ => false

/-- The value of a numeral. -/
def numeralValue (d : List Char) : Scalar LooseText :=
  if isOctal d then .int (valueOf 8 d : Nat)
  else
    match d with
    | '0' :: _ :: _ => .text (String.ofList d)
    | _ => .int (valueOf 10 d : Nat)

theorem splitColon_of_not_mem {s : List Char} (h : ':' ∉ s) : Form.splitColon s = [s] := by
  induction s with
  | nil => rfl
  | cons c s ih =>
    have hc : c ≠ ':' := fun e => h (e ▸ List.mem_cons_self)
    rw [Form.splitColon, if_neg hc, ih fun hs => h (List.mem_cons_of_mem c hs)]

theorem exists_of_isOctal {d : List Char} (h : isOctal d = true) :
    ∃ c rest, d = '0' :: c :: rest ∧ d.all (isDigitIn 8) = true := by
  unfold isOctal at h
  split at h
  · rename_i c rest
    exact ⟨c, rest, rfl, by rw [List.all_cons, h]; rfl⟩
  · cases h

/-- Without underscores the form of octal numbers is that of octal numerals. -/
theorem octalForm_eq (s : List Char) : '_' ∉ s →
    (match s with
      | '0' :: digits => !digits.isEmpty && digits.all fun c => isDigitIn 8 c || c == '_'
      | _ => false) = isOctal s := by
  intro h
  have hall : ∀ digits : List Char, '_' ∉ digits →
      (digits.all fun c => isDigitIn 8 c || c == '_') = digits.all (isDigitIn 8) := by
    intro digits hdigits
    induction digits with
    | nil => rfl
    | cons c rest ih =>
      have hc : (c == '_') = false := beq_eq_false_iff_ne.mpr fun e => hdigits (by simp [e])
      rw [List.all_cons, List.all_cons, ih fun hr => hdigits (List.mem_cons_of_mem c hr), hc,
        Bool.or_false]
  unfold isOctal
  split
  · rename_i digits
    cases digits with
    | nil => rfl
    | cons c rest => exact hall (c :: rest) fun hr => h (List.mem_cons_of_mem '0' hr)
  · rename_i hzero
    split
    · exact absurd rfl (hzero _)
    · rfl

namespace IsNumeral

variable {d : List Char} (hd : IsNumeral d)

include hd

theorem isDigit {c : Char} (hc : c ∈ d) : c.isDigit = true :=
  List.all_eq_true.mp hd.digits c hc

theorem not_mem {c : Char} (hc : c.isDigit = false) : c ∉ d := by
  intro hmem
  rw [hd.isDigit hmem] at hc
  cases hc

/-- A numeral is none of the words that have a meaning of their own. -/
theorem not_mem_words (words : List String)
    (h : ∀ w ∈ words, (!w.toList.isEmpty && w.toList.all Char.isDigit) = false) :
    words.contains (String.ofList d) = false := by
  refine Bool.eq_false_iff.mpr fun hmem => ?_
  have hw := h _ (List.contains_iff_mem.mp hmem)
  rw [String.toList_ofList, hd.digits, List.isEmpty_eq_false_iff.mpr hd.ne_nil] at hw
  cases hw

theorem ne_word {w : String} (h : (!w.toList.isEmpty && w.toList.all Char.isDigit) = false) :
    String.ofList d ≠ w := by
  rintro rfl
  rw [String.toList_ofList, hd.digits, List.isEmpty_eq_false_iff.mpr hd.ne_nil] at h
  cases h

/-! ## The form of a numeral -/

theorem dropFinalBreak : Form.dropFinalBreak d = d :=
  if_neg fun h => hd.not_mem (c := '\n') rfl (List.mem_of_getLast? h)

theorem dropSign : Form.dropSign d = d := by
  unfold Form.dropSign
  split
  · rename_i c rest
    have hc : Form.isSign c = false := by
      have hminus : c ≠ '-' := fun e => hd.not_mem (c := '-') rfl (e ▸ List.mem_cons_self)
      have hplus : c ≠ '+' := fun e => hd.not_mem (c := '+') rfl (e ▸ List.mem_cons_self)
      simp [Form.isSign, hminus, hplus]
    rw [hc]
    rfl
  · rfl

theorem isFloat_eq_false : Form.isFloat d = false := by
  have hpoint : '.' ∉ d := hd.not_mem rfl
  have hinf := hd.not_mem_words [".inf", ".Inf", ".INF"] (by decide)
  have hnan := hd.not_mem_words [".nan", ".NaN", ".NAN"] (by decide)
  have hsplit : Form.splitPoint? d = none := by
    have hnil : d.dropWhile (· ≠ '.') = [] := by
      rw [← List.append_nil d, List.dropWhile_append_of_pos fun c hc => ?_]
      · rfl
      · exact decide_eq_true fun e => hpoint (e ▸ hc)
    rw [Form.splitPoint?, hnil]
  rw [Form.isFloat]
  simp only [hd.dropSign, hinf, hnan, hsplit, Bool.or_self]
  rintro after rfl
  exact hpoint List.mem_cons_self

theorem isSexagesimal_eq_false (first : List Char → Bool) : Form.isSexagesimal first d = false := by
  rw [Form.isSexagesimal, splitColon_of_not_mem (hd.not_mem rfl)]

/-- A date has a hyphen after its year. -/
theorem isTimestamp_eq_false : Form.isTimestamp d = false := by
  have hnone : Form.written? d = none := by
    rw [Form.written?]
    cases hyear : Form.digits? 4 4 d with
    | none => rfl
    | some p =>
      obtain ⟨year, rest⟩ := p
      have hrest : '-' ∉ rest := by
        unfold Form.digits? at hyear
        dsimp only at hyear
        split at hyear
        · cases hyear
        · obtain rfl := (Prod.mk.inj (Option.some.inj hyear)).2
          exact fun h => hd.not_mem (c := '-') rfl (List.mem_of_mem_drop h)
      have hexpect : Form.expect? '-' rest = none := by
        cases rest with
        | nil => rfl
        | cons c rest => exact if_neg fun e => hrest (by rw [e]; exact List.mem_cons_self)
      simp only [bind, Option.bind, hexpect]
  rw [Form.isTimestamp, hnone]

theorem isInt_eq : Form.isInt d = (isOctal d || Form.isDecimal d) := by
  unfold Form.isInt
  simp only [hd.dropSign, hd.isSexagesimal_eq_false, Bool.or_false]
  split
  · exact absurd (by simp) (hd.not_mem (c := 'b') rfl)
  · exact absurd (by simp) (hd.not_mem (c := 'x') rfl)
  · exact congrArg (· || Form.isDecimal d) (octalForm_eq d (hd.not_mem rfl))

theorem tagOf_eq : Form.tagOf d = if isOctal d || Form.isDecimal d then .int else .str := by
  have hempty : d.isEmpty = false := List.isEmpty_eq_false_iff.mpr hd.ne_nil
  have hbool := hd.not_mem_words Form.boolWords (by decide)
  have hnull := hd.not_mem_words Form.nullWords (by decide)
  rw [Form.tagOf, hd.dropFinalBreak, hempty]
  simp only [hbool, hnull, hd.isFloat_eq_false, hd.isTimestamp_eq_false, hd.isInt_eq,
    hd.ne_word (w := "<<") rfl, hd.ne_word (w := "=") rfl, hd.ne_word (w := "!") rfl,
    hd.ne_word (w := "&") rfl, hd.ne_word (w := "*") rfl, Bool.and_false, Bool.false_eq_true, or_self,
    if_false]

/-! ## The value of a numeral -/

theorem int_eq : Value.int d = (Value.magnitude d).map .int := by
  have hplain : Value.withoutUnderscores d = d :=
    List.filter_eq_self.mpr fun c hc => decide_eq_true fun e =>
      hd.not_mem (c := '_') rfl (e ▸ hc)
  rw [Value.int, hplain]
  split
  · exact absurd List.mem_cons_self (hd.not_mem (c := '-') rfl)
  · exact absurd List.mem_cons_self (hd.not_mem (c := '+') rfl)
  · rfl

theorem magnitude_octal (h : isOctal d = true) (hlen : d.length ≤ digitLimit) :
    Value.magnitude d = .ok (valueOf 8 d : Nat) := by
  obtain ⟨c, rest, hcons, hall⟩ := exists_of_isOctal h
  have hint := Number.intOfText?_of_isDigit hd.ne_nil hd.digits hall hlen
  unfold Value.magnitude
  split
  · cases hcons
  · cases hcons
  · exact absurd (by simp) (hd.not_mem (c := 'b') rfl)
  · exact absurd (by simp) (hd.not_mem (c := 'x') rfl)
  · rw [hint]
    rfl
  · rename_i hzero
    exact absurd hcons (hzero _)

theorem magnitude_decimal (h0 : d.head? ≠ some '0') (hlen : d.length ≤ digitLimit) :
    Value.magnitude d = .ok (valueOf 10 d : Nat) := by
  have hall : d.all (isDigitIn 10) = true :=
    List.all_eq_true.mpr fun c hc => Number.isDigitIn_ten_of_isDigit (hd.isDigit hc)
  have hint := Number.intOfText?_of_isDigit hd.ne_nil hd.digits hall hlen
  have hcolon : ¬ d.contains ':' = true := fun hmem =>
    hd.not_mem (c := ':') rfl (List.contains_iff_mem.mp hmem)
  unfold Value.magnitude
  split
  · exact absurd rfl hd.ne_nil
  · rfl
  · exact absurd rfl h0
  · exact absurd rfl h0
  · exact absurd rfl h0
  · rw [if_neg hcolon, hint]
    rfl

theorem isDecimal_of_head? (h0 : d.head? ≠ some '0') : Form.isDecimal d = true := by
  have hdigitish : d.all Form.isDigitish = true := List.all_eq_true.mpr fun c hc => by
    rw [Form.isDigitish, hd.isDigit hc, Bool.true_or]
  unfold Form.isDecimal
  split
  · rfl
  · rename_i c rest _
    have hc : c ≠ '0' := fun e => h0 (congrArg some e)
    rw [List.all_cons, Bool.and_eq_true] at hdigitish
    rw [Form.isNumeral, hd.isDigit List.mem_cons_self, hdigitish.2, bne_iff_ne.mpr hc]
    rfl
  · exact absurd rfl hd.ne_nil

/-- A numeral is read as a number or as text, and `numeralValue` is what it is read as. -/
theorem ofChars_tagOf (hlen : d.length ≤ digitLimit) :
    (Form.tagOf d = .int ∨ Form.tagOf d = .str) ∧
      Value.ofChars (Form.tagOf d) d = .ok (numeralValue d) := by
  by_cases hoctal : isOctal d = true
  · have htag : Form.tagOf d = .int := by
      rw [hd.tagOf_eq, hoctal]
      rfl
    refine ⟨.inl htag, ?_⟩
    rw [htag, Value.ofChars, hd.int_eq, hd.magnitude_octal hoctal hlen]
    unfold numeralValue
    rw [if_pos hoctal]
    rfl
  by_cases h0 : d.head? = some '0'
  · obtain ⟨rest, rfl⟩ := List.head?_eq_some_iff.mp h0
    cases rest with
    | nil => exact ⟨.inl (by decide), rfl⟩
    | cons c rest =>
      have htag : Form.tagOf ('0' :: c :: rest) = .str := by
        rw [hd.tagOf_eq, Bool.eq_false_iff.mpr hoctal]
        rfl
      refine ⟨.inr htag, ?_⟩
      rw [htag, numeralValue, if_neg hoctal]
      rfl
  · have htag : Form.tagOf d = .int := by
      rw [hd.tagOf_eq, hd.isDecimal_of_head? h0, Bool.or_true]
      rfl
    refine ⟨.inl htag, ?_⟩
    rw [htag, Value.ofChars, hd.int_eq, hd.magnitude_decimal h0 hlen]
    unfold numeralValue
    rw [if_neg hoctal]
    split
    · exact absurd rfl h0
    · rfl

end IsNumeral

end Yaml
end DbImage
