import DbImage.Proofs.Number.Range
import DbImage.Yaml.Scalar.Value

/-!
# Texts that a tag asks too much of

A reader of scalars takes most texts that it cannot read for texts with a bad value.  `Misread` lists
the others, in which it fails in a way of its own, and `ofChars_eq_error_iff` says that there are no
more.  A text with half of a surrogate pair is no number either, but as a truth value and as a date it
fails like a text that is none: `MisreadText` and `ofText_eq_error_iff`.
-/

namespace DbImage
namespace Yaml

/-- The text breaks the format, or a scalar in it has a bad value. -/
def Fault.isReported : Fault → Bool
  | .malformed | .badValue => true
  | _ => false

theorem Fault.ne_malformed {f : Fault} (hf : f.isReported = false) : f ≠ .malformed := by
  intro e
  subst e
  cases hf

namespace Form

theorem splitColon_of_colon_not_mem {s : List Char} (h : ':' ∉ s) : splitColon s = [s] := by
  induction s with
  | nil => rfl
  | cons c s ih =>
    rw [List.mem_cons, not_or] at h
    rw [splitColon, if_neg (Ne.symm h.1), ih h.2]

theorem dropSign_of_ne {s : List Char} (hminus : ∀ rest, s ≠ '-' :: rest)
    (hplus : ∀ rest, s ≠ '+' :: rest) : dropSign s = s := by
  cases s with
  | nil => rfl
  | cons c rest =>
    have hc : c ≠ '-' := fun e => hminus rest (by rw [e])
    have hc' : c ≠ '+' := fun e => hplus rest (by rw [e])
    have hsign : isSign c = false := by simp [isSign, hc, hc']
    rw [dropSign, hsign]
    rfl

end Form

namespace Value

open Number (Double)

/-- The text of a floating-point number without underscores, capitals and sign. -/
def unsigned (s : List Char) : List Char :=
  Form.dropSign (Text.lowercase (String.ofList (withoutUnderscores s))).toList

/-- How the text `s` cannot be what its tag says, where this is no matter of format or value. -/
inductive Misread : Tag → List Char → Fault → Prop where
  /-- No word for a truth value. -/
  | word {s : List Char} :
    Text.lowercase (String.ofList s) ∉ ["yes", "true", "on", "no", "false", "off"] →
      Misread .bool s (.unknownWord (Text.lowercase (String.ofList s) : String))
  /-- A whole number with a sign at most. -/
  | noDigits {s : List Char} :
    withoutUnderscores s ∈ [[], ['-'], ['+']] → Misread .int s .emptyNumber
  | nothing {s : List Char} : withoutUnderscores s = [] → Misread .float s .emptyNumber
  /-- A number to the base sixty whose first place weighs more than floating point can hold. -/
  | manyPlaces {s : List Char} :
    (∀ part ∈ Form.splitColon (unsigned s), (Double.ofText? part).isSome = true) →
      175 ≤ (Form.splitColon (unsigned s)).length → Misread .float s .tooLarge
  | noDate {s : List Char} :
    Form.written? (Form.dropFinalBreak s) = none → Misread .timestamp s .noMatch

theorem Misread.not_isReported {tag : Tag} {s : List Char} {f : Fault} (h : Misread tag s f) :
    f.isReported = false := by
  cases h <;> rfl

theorem orFault_eq_error {α : Type} {fault f : Fault} {a? : Option α} :
    orFault fault a? = .error f ↔ a? = none ∧ fault = f := by
  cases a? <;> simp [orFault]

theorem map_eq_error {α β : Type} {x : Except Fault α} {g : α → β} {f : Fault} :
    x.map g = .error f ↔ x = .error f := by
  cases x <;> simp [Except.map]

/-- A bad value is reported. -/
theorem orFault_badValue_ne {α : Type} {f : Fault} (hf : f.isReported = false) (a? : Option α) :
    orFault .badValue a? ≠ .error f := by
  intro h
  obtain ⟨-, rfl⟩ := orFault_eq_error.mp h
  cases hf

/-- After a value was made, a fault that is not reported comes from what follows. -/
theorem orFault_badValue_bind {α β : Type} {f : Fault} (hf : f.isReported = false) {a? : Option α}
    {g : α → Except Fault β} (h : (orFault .badValue a? >>= g) = .error f) :
    ∃ a, a? = some a ∧ g a = .error f := by
  cases a? with
  | some a => exact ⟨a, rfl, h⟩
  | none =>
    cases h
    cases hf

/-! ## Truth values and whole numbers -/

theorem bool_eq_error {s : List Char} {f : Fault} : bool s = .error f ↔ Misread .bool s f := by
  constructor
  · intro h
    unfold bool at h
    dsimp only at h
    split at h
    · cases h
    split at h
    · cases h
    rename_i hyes hno
    cases h
    refine .word ?_
    simp only [List.contains_iff_mem, List.mem_cons, List.not_mem_nil, or_false, not_or] at *
    exact ⟨hyes.1, hyes.2.1, hyes.2.2, hno⟩
  · intro h
    cases h
    rename_i hword
    simp only [List.mem_cons, List.not_mem_nil, or_false, not_or] at hword
    simp [bool, hword]

/-- Nothing but an empty text is a whole number without digits. -/
theorem magnitude_eq_error {s : List Char} {f : Fault} (hf : f.isReported = false) :
    magnitude s = .error f ↔ s = [] ∧ f = .emptyNumber := by
  unfold magnitude
  split
  · simp [eq_comm]
  · simp
  · simp [orFault_badValue_ne hf]
  · simp [orFault_badValue_ne hf]
  · simp [orFault_badValue_ne hf]
  · rename_i hne _ _ _ _
    have hne' : s ≠ [] := hne
    split <;> simp [orFault_badValue_ne hf, hne']

theorem int_eq_error {s : List Char} {f : Fault} (hf : f.isReported = false) :
    int s = .error f ↔ Misread .int s f := by
  have hiff : int s = .error f ↔ withoutUnderscores s ∈ [[], ['-'], ['+']] ∧ f = .emptyNumber := by
    unfold int
    split
    · rename_i rest hs
      simp [map_eq_error, magnitude_eq_error hf, hs]
    · rename_i rest hs
      simp [map_eq_error, magnitude_eq_error hf, hs]
    · rename_i hminus hplus
      rw [map_eq_error, magnitude_eq_error hf]
      simp only [List.mem_cons, List.not_mem_nil, or_false]
      constructor
      · exact fun ⟨hs, he⟩ => ⟨Or.inl hs, he⟩
      · intro h
        obtain ⟨hs | hs | hs, he⟩ := h
        · exact ⟨hs, he⟩
        · exact absurd hs (hminus [])
        · exact absurd hs (hplus [])
  rw [hiff]
  constructor
  · intro h
    obtain ⟨hs, rfl⟩ := h
    exact .noDigits hs
  · intro h
    cases h
    exact ⟨‹_›, rfl⟩

/-! ## Floating point -/

/-- Of the places to the base sixty from the `k`-th on, the first to be too heavy is the 174th. -/
theorem sexagesimalSum_spec {parts : List (List Char)}
    (hparts : ∀ part ∈ parts, (Double.ofText? part).isSome = true) (sum : Double) (k : Nat) :
    (k + parts.length ≤ 174 → ∃ x, sexagesimalSum sum (60 ^ k) parts = .ok x) ∧
    (k ≤ 174 → 175 ≤ k + parts.length →
      sexagesimalSum sum (60 ^ k) parts = .error .tooLarge) := by
  induction parts generalizing sum k with
  | nil =>
    refine ⟨fun _ => ⟨sum, rfl⟩, fun hk hlen => ?_⟩
    rw [List.length_nil] at hlen
    omega
  | cons part parts ih =>
    rw [List.forall_mem_cons] at hparts
    obtain ⟨digit, hdigit⟩ := Option.isSome_iff_exists.mp hparts.1
    have hrange := Double.ofInt?_sixty_pow k
    have hpow : 60 ^ k * 60 = 60 ^ (k + 1) := (Nat.pow_succ 60 k).symm
    rw [List.length_cons]
    by_cases hk : k < 174
    · rw [decide_eq_true hk] at hrange
      obtain ⟨scale, hscale⟩ := Option.isSome_iff_exists.mp hrange
      have hstep : sexagesimalSum sum (60 ^ k) (part :: parts) =
          sexagesimalSum (sum.add (digit.mul scale)) (60 ^ (k + 1)) parts := by
        rw [sexagesimalSum, hdigit, hscale, hpow]
        rfl
      rw [hstep]
      obtain ⟨hok, hfar⟩ := ih hparts.2 (sum.add (digit.mul scale)) (k + 1)
      exact ⟨fun hlen => hok (by omega), fun _ hlen => hfar (by omega) (by omega)⟩
    · rw [decide_eq_false hk, Option.isSome_eq_false_iff, Option.isNone_iff_eq_none] at hrange
      refine ⟨fun hlen => by omega, fun _ _ => ?_⟩
      rw [sexagesimalSum, hdigit, hrange]
      rfl

theorem sexagesimalFloat_eq_error {parts : List (List Char)} {f : Fault}
    (hf : f.isReported = false) :
    sexagesimalFloat parts = .error f ↔
      (∀ part ∈ parts, (Double.ofText? part).isSome = true) ∧ 175 ≤ parts.length ∧
        f = .tooLarge := by
  unfold sexagesimalFloat
  split
  · rename_i hall
    rw [List.all_eq_true] at hall
    have hreverse : ∀ part ∈ parts.reverse, (Double.ofText? part).isSome = true :=
      fun part hp => hall part (List.mem_reverse.mp hp)
    obtain ⟨hok, hfar⟩ := sexagesimalSum_spec hreverse Double.zero 0
    rw [Nat.pow_zero, Nat.zero_add, List.length_reverse] at hok hfar
    by_cases hlen : 175 ≤ parts.length
    · rw [hfar (by omega) hlen]
      constructor
      · intro h
        exact ⟨hall, hlen, (Except.error.inj h).symm⟩
      · intro h
        obtain ⟨-, -, rfl⟩ := h
        rfl
    · obtain ⟨x, hx⟩ := hok (by omega)
      rw [hx]
      constructor
      · exact fun h => nomatch h
      · exact fun ⟨_, hfar, _⟩ => absurd hfar hlen
  · rename_i hall
    constructor
    · intro h
      cases h
      cases hf
    · intro h
      obtain ⟨hparts, -, -⟩ := h
      exact absurd (List.all_eq_true.mpr hparts) hall

theorem floatMagnitude_eq_error {s : List Char} {f : Fault} (hf : f.isReported = false) :
    floatMagnitude s = .error f ↔
      (∀ part ∈ Form.splitColon s, (Double.ofText? part).isSome = true) ∧
        175 ≤ (Form.splitColon s).length ∧ f = .tooLarge := by
  unfold floatMagnitude
  by_cases hcolon : ':' ∈ s
  · have hinf : s ≠ ".inf".toList := by
      intro e
      subst e
      revert hcolon
      decide
    have hnan : s ≠ ".nan".toList := by
      intro e
      subst e
      revert hcolon
      decide
    rw [if_neg hinf, if_neg hnan, if_pos (List.contains_iff_mem.mpr hcolon)]
    exact sexagesimalFloat_eq_error hf
  · -- without a colon there is one place alone
    rw [Form.splitColon_of_colon_not_mem hcolon]
    have hone : ¬ 175 ≤ [s].length := by simp
    have hok : ∀ x : Except Fault Double, x ≠ .error f → (x = .error f ↔
        (∀ part ∈ [s], (Double.ofText? part).isSome = true) ∧ 175 ≤ [s].length ∧
          f = .tooLarge) :=
      fun x hx => ⟨fun h => absurd h hx, fun ⟨_, hlen, _⟩ => absurd hlen hone⟩
    split
    · exact hok _ (by simp)
    split
    · exact hok _ (by simp)
    split
    · rename_i h
      exact absurd (List.contains_iff_mem.mp h) hcolon
    · exact hok _ (orFault_badValue_ne hf _)

theorem lowercase_eq_nil_iff {s : List Char} :
    (Text.lowercase (String.ofList s)).toList = [] ↔ s = [] := by
  rw [Text.lowercase, String.toList_ofList, String.toList_ofList]
  cases s with
  | nil => simp [Text.lowerAfter]
  | cons c rest =>
    simp only [Text.lowerAfter]
    split
    · simp
    split <;> simp

theorem float_eq_error {s : List Char} {f : Fault} (hf : f.isReported = false) :
    float s = .error f ↔ Misread .float s f := by
  have hiff : float s = .error f ↔
      withoutUnderscores s = [] ∧ f = .emptyNumber ∨
        (∀ part ∈ Form.splitColon (unsigned s), (Double.ofText? part).isSome = true) ∧
          175 ≤ (Form.splitColon (unsigned s)).length ∧ f = .tooLarge := by
    unfold float unsigned
    rw [← lowercase_eq_nil_iff]
    split
    · rename_i hs
      rw [hs]
      constructor
      · exact fun h => Or.inl ⟨rfl, (Except.error.inj h).symm⟩
      · intro h
        rcases h with ⟨-, rfl⟩ | ⟨-, hlen, -⟩
        · rfl
        · exact absurd hlen (by decide)
    · rename_i rest hs
      simp [hs, map_eq_error, floatMagnitude_eq_error hf, Form.dropSign, Form.isSign]
    · rename_i rest hs
      simp [hs, map_eq_error, floatMagnitude_eq_error hf, Form.dropSign, Form.isSign]
    · rename_i hne hminus hplus
      generalize (Text.lowercase (String.ofList (withoutUnderscores s))).toList = t at *
      have hne' : t ≠ [] := hne
      simp [map_eq_error, floatMagnitude_eq_error hf, Form.dropSign_of_ne hminus hplus, hne']
  rw [hiff]
  constructor
  · intro h
    rcases h with ⟨hs, rfl⟩ | ⟨hparts, hlen, rfl⟩
    · exact .nothing hs
    · exact .manyPlaces hparts hlen
  · intro h
    rcases h with _ | _ | hs | ⟨hparts, hlen⟩
    · exact Or.inl ⟨hs, rfl⟩
    · exact Or.inr ⟨hparts, hlen, rfl⟩

/-! ## Dates and bytes -/

theorem timestamp_eq_error {s : List Char} {f : Fault} (hf : f.isReported = false) :
    timestamp s = .error f ↔ Misread .timestamp s f := by
  cases hw : Form.written? (Form.dropFinalBreak s) with
  | none =>
    have hrun : timestamp s = .error .noMatch := by
      rw [timestamp, hw]
      rfl
    rw [hrun]
    constructor
    · intro h
      cases h
      exact .noDate hw
    · intro h
      cases h
      rfl
  | some w =>
    constructor
    · intro h
      rw [timestamp, hw] at h
      obtain ⟨date, -, h⟩ := orFault_badValue_bind hf h
      split at h
      · cases h
      · obtain ⟨moment, -, h⟩ := orFault_badValue_bind hf h
        cases h
    · intro h
      cases h
      rename_i hnone
      rw [hw] at hnone
      cases hnone

theorem binary_isReported {s : List Char} {f : Fault} (h : binary s = .error f) :
    f.isReported = true := by
  unfold binary at h
  split at h
  · obtain ⟨-, rfl⟩ := orFault_eq_error.mp (map_eq_error.mp h)
    rfl
  · cases h
    rfl

/-- Characters are read under a tag, or they are malformed, have a bad value, or are misread. -/
theorem ofChars_eq_error_iff {tag : Tag} {s : List Char} {f : Fault} (hf : f.isReported = false) :
    ofChars tag s = .error f ↔ Misread tag s f := by
  cases tag with
  | bool => exact bool_eq_error
  | int => exact int_eq_error hf
  | float => exact float_eq_error hf
  | timestamp => exact timestamp_eq_error hf
  | binary =>
    constructor
    · intro h
      rw [binary_isReported h] at hf
      cases hf
    · exact fun h => nomatch h
  | null | str =>
    constructor
    · exact fun h => nomatch h
    · exact fun h => nomatch h
  | _ =>
    constructor
    · intro h
      cases h
      cases hf
    · exact fun h => nomatch h

/-! ## Halves of surrogate pairs -/

/-- How a text cannot be what its tag says. Half of a surrogate pair is in no word and in no date. -/
inductive MisreadText : Tag → List CodePoint → Fault → Prop where
  | chars {tag : Tag} {s : List Char} {f : Fault} :
    Misread tag s f → MisreadText tag (s.map .char) f
  | looseWord {s : List CodePoint} :
    CodePoint.chars? s = none → MisreadText .bool s (.unknownWord (LooseText.mk s).lowercase)
  | looseDate {s : List CodePoint} :
    CodePoint.chars? s = none → MisreadText .timestamp s .noMatch

theorem MisreadText.not_isReported {tag : Tag} {s : List CodePoint} {f : Fault}
    (h : MisreadText tag s f) : f.isReported = false := by
  cases h with
  | chars h => exact h.not_isReported
  | looseWord _ => rfl
  | looseDate _ => rfl

theorem ofLoose_eq_error_iff {tag : Tag} {s : List CodePoint} {f : Fault}
    (hf : f.isReported = false) (hs : CodePoint.chars? s = none) :
    ofLoose tag ⟨s⟩ = .error f ↔ MisreadText tag s f := by
  constructor
  · intro h
    cases tag with
    | bool =>
      cases h
      exact .looseWord hs
    | timestamp =>
      cases h
      exact .looseDate hs
    | null | str => cases h
    | _ =>
      cases h
      cases hf
  · intro h
    cases h with
    | chars _ => simp at hs
    | looseWord _ => rfl
    | looseDate _ => rfl

/-- A text is read under its tag, or it is malformed, has a bad value, or is misread. -/
theorem ofText_eq_error_iff {tag : Tag} {s : List CodePoint} {f : Fault}
    (hf : f.isReported = false) : ofText tag s = .error f ↔ MisreadText tag s f := by
  unfold ofText
  cases hs : CodePoint.chars? s with
  | none => exact ofLoose_eq_error_iff hf hs
  | some cs =>
    rw [CodePoint.chars?_eq_some_iff] at hs
    subst hs
    rw [ofChars_eq_error_iff hf]
    constructor
    · exact .chars
    · intro h
      generalize hps : cs.map CodePoint.char = ps at h
      cases h with
      | @chars _ s _ h =>
        rw [(List.map_inj_right fun _ _ => CodePoint.char.inj).mp hps]
        exact h
      | looseWord h => simp [← hps] at h
      | looseDate h => simp [← hps] at h

end Value
end Yaml
end DbImage
