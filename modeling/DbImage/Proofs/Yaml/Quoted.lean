import DbImage.Proofs.Text.JsonString
import DbImage.Yaml.Token.Quoted

/-!
# Quoted values under the rules of YAML

`embedded` writes JSON, and YAML reads it.  The two agree on the short escapes and on visible ASCII,
and `\u` has four digits in both.  They part where JSON writes one character with two escapes: to
YAML each `\u` is a code point of its own, so what is read back has a code point for each UTF-16 unit
of what was written (`scanQuoted_embedded`).  That is the text itself if each of its characters has
one unit.  Half of a surrogate pair is no character, and to a reader of characters alone a text with a
character of two units is no scalar at all.
-/

namespace DbImage
namespace Yaml

open Number (valueOf)
open Text (embedded embeddedChar hexDigits isVisible jsonEscape? unitEscapes utf16Units)

/-- Reads a quoted scalar as a text of characters alone. -/
def scanCharacters (double : Bool) (k : Cursor) : Except Fault (List Char × Cursor) := do
  let (points, k) ← scanQuoted double k
  match CodePoint.chars? points with
  | some s => return (s, k)
  | none => throw .malformed

/-- One UTF-16 unit is enough for the character. -/
def FirstPlane (c : Char) : Prop :=
  c.toNat < 0x10000

instance (c : Char) : Decidable (FirstPlane c) :=
  inferInstanceAs (Decidable (c.toNat < 0x10000))

/-- A code point for each UTF-16 unit of the character. -/
def unitPoints (c : Char) : List CodePoint :=
  (utf16Units c.toNat).filterMap CodePoint.ofNat?

/-! ## Moving on -/

namespace Cursor

theorem takeBreak_of_isBreak_eq_false {k : Cursor} {c : Char} {rest : List Char}
    (hk : k.rest = c :: rest) (hc : isBreak c = false) : k.takeBreak = ([], k) := by
  have h₁ : c ≠ '\r' := fun e => by simp [e, isBreak] at hc
  have h₂ : ¬ (c = '\u2028' ∨ c = '\u2029') := by
    rintro (e | e) <;> simp [e, isBreak] at hc
  unfold takeBreak
  split
  · rename_i heq
    rw [hk] at heq
    exact absurd (List.cons.inj heq).1 h₁
  · rename_i heq
    obtain ⟨rfl, -⟩ := List.cons.inj (hk.symm.trans heq)
    rw [if_neg h₂, hc]
    rfl
  · rfl

theorem rest_skip_of_append {k : Cursor} {front rest : List Char} (hk : k.rest = front ++ rest) :
    (k.skip front.length).rest = rest := by
  rw [rest_skip, hk, List.drop_left]

theorem peek_of_cons {k : Cursor} {c : Char} {rest : List Char} (hk : k.rest = c :: rest) :
    k.peek = some c := by
  rw [peek, hk, List.head?_cons]

theorem rest_next_of_cons {k : Cursor} {c : Char} {rest : List Char} (hk : k.rest = c :: rest) :
    k.next.rest = rest := by
  rw [rest_next, hk, List.tail_cons]

end Cursor

theorem isBreak_of_isVisible {c : Char} (h : isVisible c = true) : isBreak c = false := by
  have hne : ∀ d : Char, isVisible d = false → c ≠ d := by
    rintro d hd rfl
    rw [h] at hd
    cases hd
  have h₁ := hne '\n' rfl
  have h₂ := hne '\r' rfl
  have h₃ := hne '\u0085' rfl
  have h₄ := hne '\u2028' rfl
  have h₅ := hne '\u2029' rfl
  simp [isBreak, h₁, h₂, h₃, h₄, h₅]

/-! ## Escapes -/

theorem ofNat?_toNat (c : Char) : CodePoint.ofNat? c.toNat = some (.char c) := by
  have h : c.toNat.isValidChar := c.valid
  rw [CodePoint.ofNat?, dif_pos h]
  exact congrArg (some ∘ CodePoint.char) (Char.ext rfl)

theorem ofNat?_surrogate {n : Nat} (h : 0xd800 ≤ n ∧ n < 0xe000) :
    CodePoint.ofNat? n = some (.surrogate (.ofNat 0x800 (n - 0xd800))) := by
  have hvalid : ¬ n.isValidChar := by
    rintro (hv | hv)
    · exact Nat.not_lt.mpr h.1 hv
    · exact Nat.not_lt.mpr (Nat.succ_le_of_lt hv.1) h.2
  rw [CodePoint.ofNat?, dif_neg hvalid, if_pos (by omega)]

/-- An escape with four digits stands for the code point with that number. -/
theorem scanEscape_unit {n : Nat} {p : CodePoint} (hn : n < 0x10000)
    (hp : CodePoint.ofNat? n = some p) {rest : List Char} {k : Cursor}
    (hk : k.rest = 'u' :: hexDigits 4 n ++ rest) (fuel : Nat) :
    scanEscape fuel k = .ok ([p], k.skip 5) := by
  have hdigits : k.next.rest.take 4 = hexDigits 4 n := by
    rw [Cursor.rest_next_of_cons hk]
    exact List.take_left' (Text.length_hexDigits 4 n)
  have hvalue : valueOf 16 (hexDigits 4 n) = n := by
    rw [Text.valueOf_hexDigits]
    exact Nat.mod_eq_of_lt hn
  have hpeek : k.peek = some 'u' := Cursor.peek_of_cons hk
  have hcode : scanCode 4 k.next = .ok (p, k.skip 5) := by
    simp only [scanCode, hdigits]
    rw [if_pos ⟨Text.length_hexDigits 4 n, Text.isDigitIn_hexDigits 4 n⟩, hvalue, pointOfCode, hp]
    rfl
  simp only [scanEscape, hpeek, shortEscape?, escapeWidth?, hcode]
  rfl

theorem shortEscape?_of_jsonEscape? {c e : Char} (h : jsonEscape? c = some e) :
    shortEscape? e = some c := by
  unfold jsonEscape? at h
  repeat' split at h
  all_goals cases h
  all_goals
    subst_vars
    rfl

/-! ## Blanks -/

/-- The run of blanks at the start of a text that goes on in visible ASCII is followed by a
character that ends no line. -/
theorem exists_dropWhile_blank {body : List Char} (h : body.all isVisible = true)
    (after : List Char) :
    ∃ d rest, (body ++ '"' :: after).dropWhile (fun c => c == ' ' || c == '\t') = d :: rest ∧
      isBreak d = false := by
  induction body with
  | nil => exact ⟨'"', after, rfl, rfl⟩
  | cons c body ih =>
    rw [List.all_cons, Bool.and_eq_true] at h
    rw [List.cons_append, List.dropWhile_cons]
    split
    · exact ih h.2
    · exact ⟨c, _, rfl, isBreak_of_isVisible h.1⟩

/-- Blanks that no break follows are kept. -/
theorem scanQuotedSpaces_eq {body after : List Char} (h : body.all isVisible = true) {k : Cursor}
    (hk : k.rest = body ++ '"' :: after) (fuel : Nat) :
    scanQuotedSpaces fuel k =
      .ok (k.run (fun c => c == ' ' || c == '\t'),
        k.skip (k.run fun c => c == ' ' || c == '\t').length) := by
  obtain ⟨d, rest, hd, hbreak⟩ := exists_dropWhile_blank h after
  have hrest : (k.skip (k.run fun c => c == ' ' || c == '\t').length).rest = d :: rest := by
    rw [Cursor.rest_skip, Cursor.run, Cursor.drop_length_takeWhile, hk, hd]
  simp only [scanQuotedSpaces, Cursor.peek_of_cons hrest,
    Cursor.takeBreak_of_isBreak_eq_false hrest hbreak]

theorem scanQuotedFrom_of_spaces {c : Char} {rest blanks : List Char} {k k' : Cursor} {fuel : Nat}
    (hc : (c == ' ' || c == '\t') = true) (hk : k.rest = c :: rest)
    (h : scanQuotedSpaces fuel k = .ok (blanks, k')) :
    scanQuotedFrom true (fuel + 1) k =
      (scanQuotedFrom true fuel k').map fun (s, k) => (blanks.map .char ++ s, k) := by
  have hquote : (c == '"') = false := by
    rcases (Bool.or_eq_true _ _).mp hc with e | e <;> rw [beq_iff_eq.mp e] <;> rfl
  have hslash : (c == '\\') = false := by
    rcases (Bool.or_eq_true _ _).mp hc with e | e <;> rw [beq_iff_eq.mp e] <;> rfl
  rw [scanQuotedFrom, hk]
  simp only [Bool.not_true, Bool.false_and, hquote, hslash, hc, h, Bool.and_false, Bool.true_or,
    Bool.false_eq_true, if_false, if_true, bind, Except.bind, pure, Except.pure, Except.map]

/-- A space in front of visible ASCII is kept.  The spaces after it belong to the same run, so
reading on costs no more than it did. -/
theorem scanQuotedFrom_space {body after : List Char} (h : body.all isVisible = true) {k : Cursor}
    (hk : k.rest = ' ' :: (body ++ '"' :: after)) (fuel : Nat) :
    ∃ fuel', fuel ≤ fuel' ∧ scanQuotedFrom true (fuel + 1) k =
      (scanQuotedFrom true fuel' k.next).map fun (s, k) => (.char ' ' :: s, k) := by
  have hnext : k.next.rest = body ++ '"' :: after := Cursor.rest_next_of_cons hk
  have hrun : k.run (fun c => c == ' ' || c == '\t') =
      ' ' :: k.next.run fun c => c == ' ' || c == '\t' := by
    rw [Cursor.run, Cursor.run, hk, hnext]
    rfl
  have hvisible : (' ' :: body).all isVisible = true := by
    rw [List.all_cons, h]
    rfl
  have hspaces := scanQuotedSpaces_eq hvisible hk fuel
  have hscan := scanQuotedFrom_of_spaces (by rfl) hk hspaces
  rw [hrun, List.length_cons, Cursor.skip] at hscan
  obtain ⟨c, rest, hc⟩ : ∃ c rest, k.next.rest = c :: rest := by
    cases body with
    | nil => exact ⟨_, _, hnext⟩
    | cons c body => exact ⟨_, _, hnext⟩
  by_cases hblank : (c == ' ' || c == '\t') = true
  · refine ⟨fuel + 1, Nat.le_succ fuel, ?_⟩
    rw [hscan, scanQuotedFrom_of_spaces hblank hc (scanQuotedSpaces_eq h hnext fuel)]
    cases scanQuotedFrom true fuel
      (k.next.skip (k.next.run fun c => c == ' ' || c == '\t').length) <;> rfl
  · refine ⟨fuel, Nat.le_refl fuel, ?_⟩
    have : (k.next.run fun c => c == ' ' || c == '\t') = [] := by
      rw [Cursor.run, hc, List.takeWhile_cons, if_neg hblank]
    rw [hscan, this]
    rfl

/-! ## One character -/

/-- The three forms of a character that one UTF-16 unit is enough for. -/
theorem embeddedChar_cases {c : Char} (hc : FirstPlane c) :
    embeddedChar c = '\\' :: 'u' :: hexDigits 4 c.toNat ∨
    (∃ e, jsonEscape? c = some e ∧ embeddedChar c = ['\\', e]) ∨
    (embeddedChar c = [c] ∧ isVisible c = true ∧ c ≠ '"' ∧ c ≠ '\\') := by
  have hunit : unitEscapes c.toNat = '\\' :: 'u' :: hexDigits 4 c.toNat := by
    rw [unitEscapes, utf16Units]
    exact congrArg _ (if_pos hc)
  unfold embeddedChar Text.jsonChar
  split
  · exact .inl hunit
  · split
    · rename_i e he
      exact .inr (.inl ⟨e, he, rfl⟩)
    · rename_i he
      split
      · rename_i hv
        refine .inr (.inr ⟨rfl, by simp [isVisible, hv], ?_, ?_⟩)
        · rintro rfl
          cases he
        · rintro rfl
          cases he
      · exact .inl hunit

/-- What an escape stands for comes before what the rest does. -/
theorem scanQuotedFrom_of_escape {rest : List Char} {k : Cursor} (hk : k.rest = '\\' :: rest)
    (fuel : Nat) :
    scanQuotedFrom true (fuel + 1) k = (scanEscape fuel k.next).bind fun (s, k) =>
      (scanQuotedFrom true fuel k).map fun (t, k) => (s ++ t, k) := by
  have hquote : ('\\' == '"') = false := rfl
  rw [scanQuotedFrom, hk]
  simp only [Bool.not_true, Bool.false_and, hquote, BEq.rfl, Bool.and_true, Bool.false_eq_true,
    if_false, if_true, bind, Except.bind, pure, Except.pure, Except.map]

theorem scanQuotedFrom_unit {n : Nat} {p : CodePoint} (hn : n < 0x10000)
    (hp : CodePoint.ofNat? n = some p) {rest : List Char} {k : Cursor}
    (hk : k.rest = '\\' :: 'u' :: hexDigits 4 n ++ rest) (fuel : Nat) :
    scanQuotedFrom true (fuel + 1) k =
      (scanQuotedFrom true fuel (k.skip 6)).map fun (t, k) => (p :: t, k) := by
  rw [scanQuotedFrom_of_escape hk, scanEscape_unit hn hp (Cursor.rest_next_of_cons hk)]
  rfl

theorem scanQuotedFrom_of_plain {c : Char} {rest : List Char} {k : Cursor}
    (hk : k.rest = c :: rest) (hv : isVisible c = true) (hquote : c ≠ '"') (hslash : c ≠ '\\')
    (hspace : c ≠ ' ') (fuel : Nat) :
    scanQuotedFrom true (fuel + 1) k =
      (scanQuotedFrom true fuel k.next).map fun (t, k) => (.char c :: t, k) := by
  have htab : c ≠ '\t' := by
    rintro rfl
    cases hv
  rw [scanQuotedFrom, hk]
  simp only [Bool.not_true, Bool.false_and, beq_eq_false_iff_ne.mpr hquote,
    beq_eq_false_iff_ne.mpr hslash, beq_eq_false_iff_ne.mpr hspace, beq_eq_false_iff_ne.mpr htab,
    isBreak_of_isVisible hv, Bool.and_false, Bool.or_false, Bool.false_eq_true, if_false, if_true]

theorem unitPoints_of_firstPlane {c : Char} (hc : FirstPlane c) : unitPoints c = [.char c] := by
  have hunits : utf16Units c.toNat = [c.toNat] := if_pos hc
  rw [unitPoints, hunits, List.filterMap_cons, ofNat?_toNat]
  rfl

/-- What is written for a character with one UTF-16 unit reads as the character. -/
theorem scanQuotedFrom_embeddedChar_narrow {c : Char} (hc : FirstPlane c) {body after : List Char}
    (h : body.all isVisible = true) {k : Cursor}
    (hk : k.rest = embeddedChar c ++ (body ++ '"' :: after)) (fuel : Nat) :
    ∃ fuel', fuel ≤ fuel' ∧ scanQuotedFrom true (fuel + 1) k =
      (scanQuotedFrom true fuel' (k.skip (embeddedChar c).length)).map
        fun (s, k) => (unitPoints c ++ s, k) := by
  rw [unitPoints_of_firstPlane hc]
  rcases embeddedChar_cases hc with he | ⟨e, hs, he⟩ | ⟨he, hv, hquote, hslash⟩
  · rw [he] at hk ⊢
    refine ⟨fuel, Nat.le_refl fuel, ?_⟩
    rw [scanQuotedFrom_unit hc (ofNat?_toNat c) hk, List.length_cons, List.length_cons,
      Text.length_hexDigits]
    rfl
  · rw [he] at hk ⊢
    have hpeek : k.next.peek = some e := Cursor.peek_of_cons (Cursor.rest_next_of_cons hk)
    refine ⟨fuel, Nat.le_refl fuel, ?_⟩
    rw [scanQuotedFrom_of_escape hk, scanEscape_short hpeek (shortEscape?_of_jsonEscape? hs)]
    rfl
  · rw [he] at hk ⊢
    by_cases hspace : c = ' '
    · subst hspace
      exact scanQuotedFrom_space h hk fuel
    · exact ⟨fuel, Nat.le_refl fuel, scanQuotedFrom_of_plain hk hv hquote hslash hspace fuel⟩

/-- A character with two UTF-16 units has two escapes. -/
theorem embeddedChar_wide {c : Char} (hc : ¬ FirstPlane c) :
    embeddedChar c = unitEscapes c.toNat := by
  have hlow : ∀ d, FirstPlane d → c ≠ d := fun d hd e => hc (e ▸ hd)
  have hmarkup : ¬ Text.isMarkup c = true := by
    simp [Text.isMarkup, hlow '<' (by decide), hlow '>' (by decide), hlow '&' (by decide),
      hlow '\'' (by decide)]
  have hshort : jsonEscape? c = none := by
    cases he : jsonEscape? c with
    | none => rfl
    | some e => exact absurd (Text.jsonShort?_of_jsonEscape? he).2.2 hc
  have hvisible : ¬ (0x20 ≤ c.toNat ∧ c.toNat < 0x7f) := fun hv =>
    hc (Nat.lt_trans hv.2 (by decide))
  rw [embeddedChar, if_neg hmarkup, Text.jsonChar, hshort]
  exact if_neg hvisible

/-- The two units of a character beyond the first plane are halves of a surrogate pair. -/
theorem exists_units_of_wide {c : Char} (hc : ¬ FirstPlane c) :
    ∃ high low, utf16Units c.toNat = [high, low] ∧ (0xd800 ≤ high ∧ high < 0xe000) ∧
      0xd800 ≤ low ∧ low < 0xe000 := by
  have hbound : ¬ c.toNat < 0x10000 := hc
  have hlt := Text.toNat_lt c
  refine ⟨_, _, if_neg hbound, ?_, ?_⟩ <;> omega

theorem chars?_unitPoints_append_of_wide {c : Char} (hc : ¬ FirstPlane c) (ps : List CodePoint) :
    CodePoint.chars? (unitPoints c ++ ps) = none := by
  obtain ⟨high, low, hunits, hhigh, -⟩ := exists_units_of_wide hc
  rw [unitPoints, hunits, List.filterMap_cons, ofNat?_surrogate hhigh]
  rfl

/-- What is written for a character with two UTF-16 units reads as two halves. -/
theorem scanQuotedFrom_embeddedChar_wide {c : Char} (hc : ¬ FirstPlane c) {rest : List Char}
    {k : Cursor} (hk : k.rest = embeddedChar c ++ rest) (fuel : Nat) :
    scanQuotedFrom true (fuel + 1 + 1) k =
      (scanQuotedFrom true fuel (k.skip (embeddedChar c).length)).map
        fun (s, k) => (unitPoints c ++ s, k) := by
  obtain ⟨high, low, hunits, hhigh, hlow⟩ := exists_units_of_wide hc
  have hwritten : embeddedChar c =
      '\\' :: 'u' :: hexDigits 4 high ++ '\\' :: 'u' :: hexDigits 4 low := by
    rw [embeddedChar_wide hc, unitEscapes, hunits, List.flatMap_cons, List.flatMap_singleton]
  have hlength : (embeddedChar c).length = 12 := by
    rw [hwritten]
    simp [Text.length_hexDigits]
  rw [hwritten, List.append_assoc] at hk
  have hsecond : (k.skip 6).rest = '\\' :: 'u' :: hexDigits 4 low ++ rest := by
    have hskip := Cursor.rest_skip_of_append hk
    rwa [List.length_cons, List.length_cons, Text.length_hexDigits] at hskip
  rw [scanQuotedFrom_unit (by omega) (ofNat?_surrogate hhigh) hk,
    scanQuotedFrom_unit (by omega) (ofNat?_surrogate hlow) hsecond, hlength, unitPoints, hunits,
    List.filterMap_cons, ofNat?_surrogate hhigh, List.filterMap_cons, ofNat?_surrogate hlow]
  show Except.map _ (Except.map _ (scanQuotedFrom true fuel (k.skip 12))) = _
  cases scanQuotedFrom true fuel (k.skip 12) <;> rfl

/-! ## The whole text -/

theorem isVisible_flatMap_embeddedChar (s : List Char) :
    (s.flatMap embeddedChar).all isVisible = true := by
  rw [List.all_flatMap]
  simp only [Text.isVisible_embeddedChar, List.all_eq_true, implies_true]

/-- What is written for a character leaves enough fuel for what follows. -/
theorem scanQuotedFrom_embeddedChar (c : Char) {body after : List Char}
    (h : body.all isVisible = true) {k : Cursor}
    (hk : k.rest = embeddedChar c ++ (body ++ '"' :: after)) {n fuel : Nat}
    (hf : (embeddedChar c).length + n < fuel) :
    ∃ fuel', n < fuel' ∧ scanQuotedFrom true fuel k =
      (scanQuotedFrom true fuel' (k.skip (embeddedChar c).length)).map
        fun (s, k) => (unitPoints c ++ s, k) := by
  by_cases hc : FirstPlane c
  · obtain ⟨fuel, rfl⟩ := Nat.exists_eq_add_one_of_ne_zero (Nat.ne_of_gt (Nat.zero_lt_of_lt hf))
    obtain ⟨fuel', hle, hscan⟩ := scanQuotedFrom_embeddedChar_narrow hc h hk fuel
    have hpos : 0 < (embeddedChar c).length := by
      rcases embeddedChar_cases hc with he | ⟨e, -, he⟩ | ⟨he, -⟩ <;> rw [he] <;>
        exact Nat.zero_lt_succ _
    exact ⟨fuel', by omega, hscan⟩
  · have hlength : 2 ≤ (embeddedChar c).length := by
      obtain ⟨high, low, hunits, -⟩ := exists_units_of_wide hc
      rw [embeddedChar_wide hc, unitEscapes, hunits]
      simp [Text.length_hexDigits]
    obtain ⟨fuel, rfl⟩ : ∃ m, fuel = m + 1 + 1 := ⟨fuel - 2, by omega⟩
    exact ⟨fuel, by omega, scanQuotedFrom_embeddedChar_wide hc hk fuel⟩

/-- By induction on the text, for any fuel that exceeds what is written. -/
theorem scanQuotedFrom_flatMap_embeddedChar {s : List Char} {after : List Char} {k : Cursor}
    (hk : k.rest = s.flatMap embeddedChar ++ '"' :: after) {fuel : Nat}
    (hf : (s.flatMap embeddedChar).length < fuel) :
    ∃ k', scanQuotedFrom true fuel k = .ok (s.flatMap unitPoints, k') ∧ k'.rest = after := by
  induction s generalizing k fuel with
  | nil =>
    obtain ⟨fuel, rfl⟩ := Nat.exists_eq_add_one_of_ne_zero (Nat.ne_of_gt hf)
    refine ⟨k.next, ?_, Cursor.rest_next_of_cons hk⟩
    rw [scanQuotedFrom, hk]
    rfl
  | cons c s ih =>
    rw [List.flatMap_cons, List.length_append] at hf
    rw [List.flatMap_cons, List.append_assoc] at hk
    obtain ⟨fuel', hfuel', hscan⟩ :=
      scanQuotedFrom_embeddedChar c (isVisible_flatMap_embeddedChar s) hk hf
    obtain ⟨k', hback, hrest⟩ := ih (Cursor.rest_skip_of_append hk) hfuel'
    exact ⟨k', by rw [hscan, hback]; rfl, hrest⟩

/-- At the place of a quoted text the scalar read there has a code point for each UTF-16 unit of the
text, and ends at its closing quote. -/
theorem scanQuoted_embedded {s : String} {after : List Char} {k : Cursor}
    (hk : k.rest = (embedded s).toList ++ after) :
    ∃ k', scanQuoted true k = .ok (s.toList.flatMap unitPoints, k') ∧ k'.rest = after := by
  have hlist : k.rest = '"' :: (s.toList.flatMap embeddedChar ++ '"' :: after) := by
    rw [hk, embedded, Text.jsonStringWith_string, String.toList_ofList]
    simp
  refine scanQuotedFrom_flatMap_embeddedChar (Cursor.rest_next_of_cons hlist) ?_
  rw [hlist, List.length_cons, List.length_append]
  omega

/-! ## Characters alone -/

theorem flatMap_unitPoints {s : List Char} (hs : ∀ c ∈ s, FirstPlane c) :
    s.flatMap unitPoints = s.map .char := by
  induction s with
  | nil => rfl
  | cons c s ih =>
    rw [List.forall_mem_cons] at hs
    rw [List.flatMap_cons, unitPoints_of_firstPlane hs.1, ih hs.2, List.map_cons]
    rfl

theorem chars?_flatMap_unitPoints_of_wide {s : List Char} (hs : ∃ c ∈ s, ¬ FirstPlane c) :
    CodePoint.chars? (s.flatMap unitPoints) = none := by
  induction s with
  | nil =>
    obtain ⟨c, hc, -⟩ := hs
    cases hc
  | cons c s ih =>
    rw [List.flatMap_cons]
    by_cases hc : FirstPlane c
    · obtain ⟨d, hd, hwide⟩ := hs
      have hd' : d ∈ s := (List.mem_cons.mp hd).resolve_left fun e => hwide (e ▸ hc)
      rw [unitPoints_of_firstPlane hc, List.singleton_append, CodePoint.chars?, ih ⟨d, hd', hwide⟩]
      rfl
    · exact chars?_unitPoints_append_of_wide hc _

theorem scanCharacters_embedded {s : String} (hs : ∀ c ∈ s.toList, FirstPlane c)
    {after : List Char} {k : Cursor} (hk : k.rest = (embedded s).toList ++ after) :
    ∃ k', scanCharacters true k = .ok (s.toList, k') ∧ k'.rest = after := by
  obtain ⟨k', hscan, hrest⟩ := scanQuoted_embedded hk
  rw [flatMap_unitPoints hs] at hscan
  refine ⟨k', ?_, hrest⟩
  simp only [scanCharacters, hscan, bind, Except.bind, CodePoint.chars?_map_char]
  rfl

theorem scanCharacters_embedded_wide {s : String} (hs : ∃ c ∈ s.toList, ¬ FirstPlane c)
    {after : List Char} {k : Cursor} (hk : k.rest = (embedded s).toList ++ after) :
    scanCharacters true k = .error .malformed := by
  obtain ⟨k', hscan, -⟩ := scanQuoted_embedded hk
  simp only [scanCharacters, hscan, bind, Except.bind, chars?_flatMap_unitPoints_of_wide hs]
  rfl

end Yaml
end DbImage
