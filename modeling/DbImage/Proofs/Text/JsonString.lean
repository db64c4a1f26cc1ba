import DbImage.Number.Reading
import DbImage.Text.JsonString

/-!
# Reading JSON strings

`jsonDecode?` reads a JSON string by the rules of the format alone: eight escapes of two characters,
`\u` with four hexadecimal digits for one UTF-16 unit, and any other character from the space on for
itself.  Two units may be the halves of one character, and a half on its own is no text.  What
`embedded` writes is such a string, in visible ASCII, and reads back as the text it was written from.
-/

namespace DbImage
namespace Text

open Number (hexValue? isDigitIn valueOf)

/-- The character that an escape of two characters stands for. -/
def jsonShort? (c : Char) : Option Char :=
  match c with
  | '"' => some '"'
  | '\\' => some '\\'
  | '/' => some '/'
  | 'b' => some '\u0008'
  | 'f' => some '\u000c'
  | 'n' => some '\n'
  | 'r' => some '\r'
  | 't' => some '\t'
  | _ => none

/-- The units of a JSON string from its first character on: the code point of a character that stands
for itself or has a short escape, and the number of any other escape.  The closing quote is the end
of the text. -/
def jsonUnits? : List Char → Option (List Nat)
  | [] => none
  | '\\' :: 'u' :: a :: b :: c :: d :: rest =>
    if [a, b, c, d].all (isDigitIn 16) then (jsonUnits? rest).map (valueOf 16 [a, b, c, d] :: ·)
    else none
  | '\\' :: e :: rest => (jsonShort? e).bind fun c => (jsonUnits? rest).map (c.toNat :: ·)
  | c :: rest =>
    if c = '"' then if rest.isEmpty then some [] else none
    else if c = '\\' ∨ c.toNat < 0x20 then none
    else (jsonUnits? rest).map (c.toNat :: ·)

/-- The characters of units.  A high half and the low half after it are one character. -/
def joinUnits? : List Nat → Option (List Char)
  | [] => some []
  | [u] => if 0xd800 ≤ u ∧ u < 0xe000 then none else some [Char.ofNat u]
  | u :: v :: rest =>
    if 0xd800 ≤ u ∧ u < 0xdc00 then
      if 0xdc00 ≤ v ∧ v < 0xe000 then
        (joinUnits? rest).map (Char.ofNat (0x10000 + (u - 0xd800) * 0x400 + (v - 0xdc00)) :: ·)
      else none
    else if 0xdc00 ≤ u ∧ u < 0xe000 then none
    else (joinUnits? (v :: rest)).map (Char.ofNat u :: ·)

/-- The text that a JSON string denotes. -/
def jsonDecode? (s : String) : Option String :=
  match s.toList with
  | '"' :: rest => ((jsonUnits? rest).bind joinUnits?).map String.ofList
  | _ => none

/-! ## Hexadecimal digits -/

theorem hexValue?_digitChar {n : Nat} (h : n < 16) : hexValue? n.digitChar = some n := by
  have : ∀ m < 16, hexValue? (Nat.digitChar m) = some m := by decide
  exact this n h

theorem isDigitIn_hexDigits (width n : Nat) : (hexDigits width n).all (isDigitIn 16) = true := by
  induction width generalizing n with
  | zero => rfl
  | succ width ih =>
    have hlt : n % 16 < 16 := Nat.mod_lt n (by decide)
    rw [hexDigits, List.all_append, ih, Bool.true_and]
    simp [isDigitIn, hexValue?_digitChar hlt, hlt]

/-- The last `width` digits of a number are worth what the number leaves modulo their range. -/
theorem valueOf_hexDigits (width n : Nat) : valueOf 16 (hexDigits width n) = n % 16 ^ width := by
  induction width generalizing n with
  | zero => rw [hexDigits, Number.valueOf_nil, Nat.pow_zero, Nat.mod_one]
  | succ width ih =>
    have hlt : n % 16 < 16 := Nat.mod_lt n (by decide)
    rw [hexDigits, Number.valueOf_append_singleton, ih, hexValue?_digitChar hlt, Option.getD_some,
      Nat.pow_succ, Nat.mul_comm (16 ^ width) 16, Nat.mod_mul]
    omega

/-- Visible ASCII, the space included. -/
def isVisible (c : Char) : Bool :=
  decide (0x20 ≤ c.toNat) && decide (c.toNat < 0x7f)

theorem isVisible_hexDigits (width n : Nat) : (hexDigits width n).all isVisible = true := by
  have hdigit : ∀ m < 16, isVisible (Nat.digitChar m) = true := by decide
  induction width generalizing n with
  | zero => rfl
  | succ width ih =>
    rw [hexDigits, List.all_append, ih, Bool.true_and]
    simp [hdigit (n % 16) (Nat.mod_lt n (by decide))]

/-! ## Characters and their units -/

theorem utf16Units_lt {n : Nat} (h : n < 0x110000) : ∀ u ∈ utf16Units n, u < 0x10000 := by
  intro u hu
  unfold utf16Units at hu
  split at hu
  · simp only [List.mem_singleton] at hu
    omega
  · simp only [List.mem_cons, List.not_mem_nil, or_false] at hu
    omega

theorem toNat_lt (c : Char) : c.toNat < 0x110000 := by
  rcases c.valid with h | h
  · exact Nat.lt_trans h (by decide)
  · exact h.2

/-- No character is half of another. -/
theorem not_surrogate (c : Char) : ¬ (0xd800 ≤ c.toNat ∧ c.toNat < 0xe000) := by
  rcases c.valid with h | h
  · exact fun hc => Nat.not_lt.mpr hc.1 h
  · exact fun hc => Nat.not_lt.mpr (Nat.succ_le_of_lt h.1) hc.2

/-- Read from the front, the units of a character give the character. -/
theorem joinUnits?_utf16Units (c : Char) (us : List Nat) :
    joinUnits? (utf16Units c.toNat ++ us) = (joinUnits? us).map (c :: ·) := by
  have hc := not_surrogate c
  have hlt := toNat_lt c
  unfold utf16Units
  split
  · have h₁ : ¬ (0xd800 ≤ c.toNat ∧ c.toNat < 0xdc00) := by omega
    have h₂ : ¬ (0xdc00 ≤ c.toNat ∧ c.toNat < 0xe000) := by omega
    cases us with
    | nil => simp [joinUnits?, hc]
    | cons u us => simp only [List.singleton_append, joinUnits?, if_neg h₁, if_neg h₂, Char.ofNat_toNat]
  · have hhigh : 0xd800 ≤ 0xd800 + (c.toNat - 0x10000) / 0x400 ∧
        0xd800 + (c.toNat - 0x10000) / 0x400 < 0xdc00 := by omega
    have hlow : 0xdc00 ≤ 0xdc00 + (c.toNat - 0x10000) % 0x400 ∧
        0xdc00 + (c.toNat - 0x10000) % 0x400 < 0xe000 := by omega
    have hcode : 0x10000 + (0xd800 + (c.toNat - 0x10000) / 0x400 - 0xd800) * 0x400
        + (0xdc00 + (c.toNat - 0x10000) % 0x400 - 0xdc00) = c.toNat := by omega
    rw [List.cons_append, List.singleton_append, joinUnits?, if_pos hhigh, if_pos hlow, hcode,
      Char.ofNat_toNat]

/-! ## What is written reads back -/

theorem jsonUnits?_escape {u : Nat} (h : u < 0x10000) (rest : List Char) :
    jsonUnits? ('\\' :: 'u' :: hexDigits 4 u ++ rest) = (jsonUnits? rest).map (u :: ·) := by
  obtain ⟨a, b, c, d, hd⟩ : ∃ a b c d, hexDigits 4 u = [a, b, c, d] := ⟨_, _, _, _, rfl⟩
  have hdigits := isDigitIn_hexDigits 4 u
  have hvalue := valueOf_hexDigits 4 u
  rw [Nat.mod_eq_of_lt (by simpa using h)] at hvalue
  rw [hd] at hdigits hvalue ⊢
  simp only [List.cons_append, List.nil_append, jsonUnits?]
  rw [if_pos hdigits, hvalue]

/-- The escapes of a character read as its units. -/
theorem jsonUnits?_unitEscapes (c : Char) (rest : List Char) :
    jsonUnits? (unitEscapes c.toNat ++ rest) =
      (jsonUnits? rest).map (utf16Units c.toNat ++ ·) := by
  have hall := utf16Units_lt (toNat_lt c)
  unfold unitEscapes
  generalize utf16Units c.toNat = us at hall ⊢
  induction us with
  | nil => simp
  | cons u us ih =>
    rw [List.flatMap_cons, List.append_assoc, jsonUnits?_escape (hall u List.mem_cons_self),
      ih fun v hv => hall v (List.mem_cons_of_mem u hv), Option.map_map]
    rfl

theorem jsonShort?_of_jsonEscape? {c e : Char} (h : jsonEscape? c = some e) :
    jsonShort? e = some c ∧ e ≠ 'u' ∧ c.toNat < 0x10000 := by
  unfold jsonEscape? at h
  repeat' split at h
  all_goals cases h
  all_goals
    subst_vars
    exact ⟨rfl, by decide, by decide⟩

theorem jsonUnits?_jsonChar (c : Char) (rest : List Char) :
    jsonUnits? (jsonChar c ++ rest) = (jsonUnits? rest).map (utf16Units c.toNat ++ ·) := by
  unfold jsonChar
  split
  · rename_i e he
    obtain ⟨hs, hu, hlt⟩ := jsonShort?_of_jsonEscape? he
    have : utf16Units c.toNat = [c.toNat] := if_pos hlt
    simp [jsonUnits?, hu, hs, this]
  · rename_i he
    split
    · rename_i hv
      have hquote : c ≠ '"' := fun e => by simp [e, jsonEscape?] at he
      have hslash : c ≠ '\\' := fun e => by simp [e, jsonEscape?] at he
      have : utf16Units c.toNat = [c.toNat] := if_pos (by omega)
      rw [this, List.singleton_append, jsonUnits?]
      · simp [hquote, hslash, Nat.not_lt.mpr hv.1]
      · exact fun _ _ _ _ _ e _ => hslash e
      · exact fun _ _ e _ => hslash e
    · exact jsonUnits?_unitEscapes c rest

theorem jsonUnits?_embeddedChar (c : Char) (rest : List Char) :
    jsonUnits? (embeddedChar c ++ rest) = (jsonUnits? rest).map (utf16Units c.toNat ++ ·) := by
  unfold embeddedChar
  split
  · exact jsonUnits?_unitEscapes c rest
  · exact jsonUnits?_jsonChar c rest

theorem jsonUnits?_flatMap_embeddedChar (s : List Char) :
    jsonUnits? (s.flatMap embeddedChar ++ ['"']) = some (s.flatMap fun c => utf16Units c.toNat) := by
  induction s with
  | nil => rfl
  | cons c s ih =>
    rw [List.flatMap_cons, List.append_assoc, jsonUnits?_embeddedChar, ih, List.flatMap_cons,
      Option.map_some]

theorem joinUnits?_flatMap_utf16Units (s : List Char) :
    joinUnits? (s.flatMap fun c => utf16Units c.toNat) = some s := by
  induction s with
  | nil => rfl
  | cons c s ih => rw [List.flatMap_cons, joinUnits?_utf16Units, ih, Option.map_some]

/-- A text in quotes denotes the text. -/
theorem jsonDecode?_embedded (s : String) : jsonDecode? (embedded s) = some s := by
  rw [jsonDecode?, embedded, jsonStringWith_string, String.toList_ofList]
  simp only [List.cons_append, jsonUnits?_flatMap_embeddedChar, Option.bind_some,
    joinUnits?_flatMap_utf16Units, Option.map_some, String.ofList_toList]

/-! ## Visible ASCII -/

theorem isVisible_unitEscapes (n : Nat) : (unitEscapes n).all isVisible = true := by
  unfold unitEscapes
  generalize utf16Units n = us
  induction us with
  | nil => rfl
  | cons u us ih =>
    rw [List.flatMap_cons, List.all_append, ih, Bool.and_true, List.all_cons, List.all_cons,
      isVisible_hexDigits]
    rfl

theorem isVisible_embeddedChar (c : Char) : (embeddedChar c).all isVisible = true := by
  unfold embeddedChar jsonChar
  split
  · exact isVisible_unitEscapes _
  · split
    · rename_i e he
      unfold jsonEscape? at he
      repeat' split at he
      all_goals cases he
      all_goals rfl
    · split
      · rename_i hv
        simp [isVisible, hv]
      · exact isVisible_unitEscapes _

/-- Nothing but visible ASCII stands in a quoted text, so no line end does. -/
theorem isVisible_embedded (s : String) : (embedded s).toList.all isVisible = true := by
  rw [embedded, jsonStringWith_string, String.toList_ofList, List.all_append, List.all_cons,
    List.all_flatMap]
  simp only [isVisible_embeddedChar]
  simp [isVisible]

end Text
end DbImage
