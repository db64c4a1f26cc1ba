import DbImage.Config.Reading
import DbImage.Proofs.Compose.Escape
import DbImage.Proofs.Config.Chains
import DbImage.Proofs.Yaml.Entry
import DbImage.Proofs.Yaml.Numeral

/-!
# Credentials that are numerals

A name or a password may be a run of digits.  A configuration that says so says it to a reader of
YAML, which sees a number and no text, and the configuration has the text of that number.  It is the
text that was written, unless that is octal to the reader (`ofText_numeral_iff`).
-/

namespace DbImage

open Number (digitLimit isDigitIn valueOf)
open Yaml (IsNumeral IsBareWord isOctal numeralValue)

/-- The fields whose text may be given as a number. -/
inductive Credential where
  | dbName
  | user
  | password
  deriving DecidableEq

namespace Credential

def key : Credential → String
  | dbName => "db_name"
  | user => "user"
  | password => "password"

/-- What a configuration has for the field. -/
def get : Credential → ImageConfig → Option LooseText
  | dbName, c => c.dbName
  | user, c => c.user
  | password, c => c.password

/-- The configuration that sets the field and nothing else. -/
def alone : Credential → LooseText → ImageConfig
  | dbName, s => { ImageConfig.default with dbName := some s }
  | user, s => { ImageConfig.default with user := some s }
  | password, s => { ImageConfig.default with password := some s }

@[simp]
theorem get_alone (f : Credential) (s : LooseText) : f.get (f.alone s) = some s := by
  cases f <;> rfl

theorem isBareWord_key (f : Credential) : IsBareWord f.key.toList := by
  cases f <;> exact ⟨by decide, by decide⟩

theorem tagOf_key (f : Credential) : Yaml.Form.tagOf f.key.toList = .str := by
  cases f <;> decide +kernel

theorem length_key_le (f : Credential) : f.key.toList.length ≤ Yaml.keyLimit := by
  cases f <;> decide

end Credential

/-- The text of a value that is given for a field of this kind sets the field. -/
theorem ImageConfig.ofDatum_credential {value : Datum LooseText} {s : LooseText}
    (h : Checks.optional Checks.credential value = .ok (some s)) (f : Credential) :
    ImageConfig.ofDatum (.map [(.text f.key, value)]) = .ok (f.alone s) := by
  have hfield : Checks.entry [(.text f.key, value)] f.key none
      (Checks.optional Checks.credential) = .ok (some s) := by
    have hentry : Datum.entry? ([(.text f.key, value)] : Entries LooseText) f.key =
        some value := by
      cases f <;> rfl
    rw [Checks.entry, hentry]
    simp only [h]
    rfl
  cases f with
  | dbName => exact ofEntries_eq_ok rfl hfield rfl rfl rfl rfl rfl rfl
  | user => exact ofEntries_eq_ok rfl rfl hfield rfl rfl rfl rfl rfl
  | password => exact ofEntries_eq_ok rfl rfl rfl hfield rfl rfl rfl rfl

/-! ## The text of a numeral -/

/-- The text that a numeral comes to. -/
def numeralText (d : String) : String :=
  if isOctal d.toList then Nat.repr (valueOf 8 d.toList) else d

theorem optional_credential_int (n : Nat) (h : (Nat.repr n).length ≤ digitLimit) :
    Checks.optional Checks.credential (.scalar (.int n)) =
      .ok (some (Nat.repr n : LooseText)) := by
  have hlimit : ¬ digitLimit < (Nat.repr (n : Int).natAbs).length := Nat.not_lt.mpr h
  have hcheck : Checks.credential (.scalar (.int n)) = .ok (Nat.repr n : LooseText) :=
    if_neg hlimit
  exact congrArg (Except.map some) hcheck

/-- A numeral that is zero or has no zero in front is the text of its value. -/
theorem repr_valueOf {d : String} (hd : IsNumeral d.toList)
    (hzero : ∀ c rest, d.toList = '0' :: c :: rest → False) :
    Nat.repr (valueOf 10 d.toList) = d := by
  rw [← String.toList_inj, Nat.toList_repr]
  cases hlist : d.toList with
  | nil => exact absurd hlist hd.ne_nil
  | cons c rest =>
    have hdigits := hd.digits
    rw [hlist, List.all_cons, Bool.and_eq_true] at hdigits
    by_cases hc : c = '0'
    · subst hc
      cases rest with
      | nil => decide
      | cons c rest => exact (hzero c rest hlist).elim
    · exact Number.toDigits_valueOf hdigits.1 hc hdigits.2

theorem optional_credential_numeralValue {d : String} (hd : IsNumeral d.toList)
    (hlen : d.length ≤ digitLimit) :
    Checks.optional Checks.credential (.scalar (numeralValue d.toList)) =
      .ok (some (numeralText d : LooseText)) := by
  have hpos : 0 < d.toList.length := List.length_pos_iff.mpr hd.ne_nil
  rw [String.length_toList] at hpos
  unfold numeralText numeralValue
  by_cases hoctal : isOctal d.toList = true
  · rw [if_pos hoctal, if_pos hoctal]
    refine optional_credential_int _ (Nat.le_trans (Number.length_repr_le hpos ?_) hlen)
    obtain ⟨-, -, -, hall⟩ := Yaml.exists_of_isOctal hoctal
    have hlt := Number.valueOf_lt hall
    rw [String.length_toList] at hlt
    exact Nat.lt_of_lt_of_le hlt (Nat.pow_le_pow_left (by decide) _)
  rw [if_neg hoctal, if_neg hoctal]
  split
  · rw [String.ofList_toList]
    rfl
  · rename_i hzero
    have hrepr : Nat.repr (valueOf 10 d.toList) = d := repr_valueOf hd hzero
    have hlen' : (Nat.repr (valueOf 10 d.toList)).length ≤ digitLimit := by rwa [hrepr]
    rw [optional_credential_int _ hlen', hrepr]

theorem numeralText_eq_iff {d : String} :
    numeralText d = d ↔ isOctal d.toList = false := by
  unfold numeralText
  by_cases hoctal : isOctal d.toList = true
  · obtain ⟨c, rest, hcons, -⟩ := Yaml.exists_of_isOctal hoctal
    rw [if_pos hoctal, hoctal]
    refine iff_of_false (fun h => ?_) (by decide)
    have := congrArg String.toList h
    rw [Nat.toList_repr, hcons] at this
    exact Number.toDigits_ne_of_zero _ this
  · rw [if_neg hoctal]
    exact iff_of_true rfl (Bool.eq_false_iff.mpr hoctal)

/-! ## Configurations of one credential -/

theorem isBareWord_of_isNumeral {d : List Char} (hd : IsNumeral d) : IsBareWord d := by
  refine ⟨hd.ne_nil, List.all_eq_true.mpr fun c hc => ?_⟩
  rw [Yaml.isBare, Char.isAlphanum, hd.isDigit hc, Bool.or_true, Bool.true_or]

/-- No placeholder stands in the text of an entry. -/
theorem interpolate_entry (f : Credential) {d : String} (hd : IsNumeral d.toList) (b : Bindings) :
    Interpolation.interpolate (f.key ++ ": " ++ d) b = .ok (f.key ++ ": " ++ d) := by
  have hbare : ∀ {w : List Char}, w.all Yaml.isBare = true → '$' ∉ w := fun hw hmem =>
    absurd (List.all_eq_true.mp hw _ hmem) (by decide)
  refine Compose.interpolate_of_not_mem ?_ b
  rw [String.toList_append, String.toList_append]
  simp only [List.mem_append, not_or]
  exact ⟨⟨hbare f.isBareWord_key.bare, by decide⟩, hbare (isBareWord_of_isNumeral hd).bare⟩

theorem ImageConfig.ofText_of_interpolate {template text : String} {b : Bindings}
    (h : Interpolation.interpolate template b = .ok text) :
    ImageConfig.ofText template b =
      ((Yaml.read depth text.toList).mapError Failure.ofYaml).bind ofValue := by
  simp only [ImageConfig.ofText, h, Except.mapError, bind, Except.bind]

theorem ofText_numeral (f : Credential) {d : String} (hd : IsNumeral d.toList)
    (hlen : d.length ≤ digitLimit) (b : Bindings) :
    ImageConfig.ofText (f.key ++ ": " ++ d) b = .ok (f.alone (numeralText d)) := by
  have hlist : (f.key ++ ": " ++ d).toList = f.key.toList ++ ':' :: ' ' :: d.toList := by
    rw [String.toList_append, String.toList_append, List.append_assoc]
    rfl
  obtain ⟨htag, hvalue⟩ := hd.ofChars_tagOf (String.length_toList ▸ hlen)
  have hread := Yaml.read_entry f.isBareWord_key f.length_key_le (isBareWord_of_isNumeral hd)
    f.tagOf_key htag hvalue 3
  rw [String.ofList_toList] at hread
  have hdatum := ImageConfig.ofDatum_credential (optional_credential_numeralValue hd hlen) f
  rw [ImageConfig.ofText_of_interpolate (interpolate_entry f hd b), hlist, ImageConfig.depth, hread]
  simp only [Except.mapError, Except.bind, ImageConfig.ofValue, hdatum]

/-- What a configuration makes of a numeral.  It succeeds, and it has the numeral itself for the field
unless that is octal.  The same goes for a numeral that variables give. -/
theorem ofText_numeral_iff (f : Credential) (d : String) (hne : d ≠ "")
    (hdigits : ∀ c ∈ d.toList, c.isDigit = true) (hlen : d.length ≤ 4300) (b : Bindings) :
    (∃ c, ImageConfig.ofText (f.key ++ ": " ++ d) b = .ok c ∧
      (f.get c = some (d : LooseText) ↔ isOctal d.toList = false) ∧
      (isOctal d.toList = true → f.get c = some (Nat.repr (valueOf 8 d.toList) : LooseText))) ∧
    ∀ template, Interpolation.interpolate template b = .ok (f.key ++ ": " ++ d) →
      ImageConfig.ofText template b = ImageConfig.ofText (f.key ++ ": " ++ d) b := by
  have hd : IsNumeral d.toList :=
    ⟨fun e => hne (String.toList_eq_nil_iff.mp e), List.all_eq_true.mpr hdigits⟩
  refine ⟨⟨_, ofText_numeral f hd hlen b, ?_, fun hoctal => ?_⟩, fun template ht => ?_⟩
  · rw [Credential.get_alone, Option.some.injEq, LooseText.ofString_inj]
    exact numeralText_eq_iff
  · rw [Credential.get_alone, numeralText, if_pos hoctal]
  · rw [ImageConfig.ofText_of_interpolate ht,
      ImageConfig.ofText_of_interpolate (interpolate_entry f hd b)]

/-- A zero in front does no harm if some digit is beyond seven. -/
theorem ofText_numeral_iff_of_nine :
    "0189" ≠ "" ∧ (∀ c ∈ "0189".toList, c.isDigit = true) ∧ "0189".length ≤ 4300 ∧
      ∃ c, ImageConfig.ofText "password: 0189" [] = .ok c ∧
        c.password = some ("0189" : LooseText) := by
  have hne : "0189" ≠ "" := by decide
  have hdigits : ∀ c ∈ "0189".toList, c.isDigit = true := List.all_eq_true.mp (by decide)
  have hlen : "0189".length ≤ 4300 := by decide
  obtain ⟨c, hc, hiff, -⟩ := (ofText_numeral_iff .password "0189" hne hdigits hlen []).1
  exact ⟨hne, hdigits, hlen, c, hc, hiff.mpr (by decide)⟩

/-- A password that is read to the base eight. -/
theorem octal_password_differs :
    ∃ c, ImageConfig.ofText "password: 0123" [] = .ok c ∧ c.password = some ("83" : LooseText) ∧
      c.password ≠ some ("0123" : LooseText) := by
  have hd : IsNumeral "0123".toList := ⟨by decide, by decide⟩
  have htext : numeralText "0123" = "83" := by decide
  have h := ofText_numeral .password hd (by decide) []
  rw [htext] at h
  exact ⟨_, h, rfl, by decide⟩

end DbImage
