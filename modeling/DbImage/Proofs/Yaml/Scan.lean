import DbImage.Proofs.Number.Numeral
import DbImage.Yaml.Token.Stream

/-!
# Scanning moves on

Every rule of the scanner leaves a cursor further on in the same text, and fails because the text is
malformed or an escape has no character.  Of these faults one is not reported: an escape whose code
takes more than 31 bits, which is then written out in the text (`fault_ofText`).
-/

namespace DbImage
namespace Yaml

open Number (isDigitIn valueOf)

/-! ## Places further on -/

namespace Cursor

theorem next_suffix (k : Cursor) : k.next.rest <:+ k.rest := by
  rw [rest_next]
  exact List.tail_suffix _

theorem skip_suffix (n : Nat) (k : Cursor) : (k.skip n).rest <:+ k.rest := by
  rw [rest_skip]
  exact List.drop_suffix _ _

theorem skipWhile_suffix (p : Char → Bool) (k : Cursor) : (k.skipWhile p).rest <:+ k.rest :=
  skip_suffix _ k

theorem skipSpaces_suffix (k : Cursor) : k.skipSpaces.rest <:+ k.rest := skipWhile_suffix _ k

theorem skipLine_suffix (k : Cursor) : k.skipLine.rest <:+ k.rest := skipWhile_suffix _ k

theorem takeBreak_suffix (k : Cursor) : k.takeBreak.2.rest <:+ k.rest := by
  unfold takeBreak
  split
  · exact skip_suffix 2 k
  · split
    · exact next_suffix k
    split
    · exact next_suffix k
    · exact List.suffix_rfl
  · exact List.suffix_rfl

theorem skipIndent_suffix (indent : Nat) (k : Cursor) : (skipIndent indent k).rest <:+ k.rest :=
  skip_suffix _ k

end Cursor

open Cursor

/-- An escape in the text has a code of more than 31 bits. -/
def FarEscape (s : List Char) : Prop :=
  ∃ digits, '\\' :: 'U' :: digits <:+: s ∧ digits.length = 8 ∧
    digits.all (isDigitIn 16) = true ∧ 2 ^ 31 ≤ valueOf 16 digits

/-- A fault that scanning the text can come to. -/
def FaultIn (s : List Char) (f : Fault) : Prop :=
  f = .malformed ∨ f = .badValue ∨ f = .tooLarge ∧ FarEscape s

theorem FarEscape.of_suffix {s t : List Char} (h : t <:+ s) (ht : FarEscape t) : FarEscape s := by
  obtain ⟨digits, hin, hdigits⟩ := ht
  exact ⟨digits, hin.trans h.isInfix, hdigits⟩

theorem FaultIn.of_suffix {s t : List Char} {f : Fault} (h : t <:+ s) (hf : FaultIn t f) :
    FaultIn s f := by
  rcases hf with hf | hf | ⟨hf, hfar⟩
  · exact Or.inl hf
  · exact Or.inr (Or.inl hf)
  · exact Or.inr (Or.inr ⟨hf, hfar.of_suffix h⟩)

/-- A scan of `s` leaves a text further on in it, or comes to a fault in it. -/
structure Scans {α : Type} (s : List Char) (rest : α → List Char) (x : Except Fault α) : Prop where
  suffix : ∀ a, x = .ok a → rest a <:+ s
  fault : ∀ f, x = .error f → FaultIn s f

namespace Scans

variable {α β : Type} {s t : List Char} {rest : α → List Char} {rest' : β → List Char}

theorem ok {a : α} (h : rest a <:+ s) : Scans s rest (.ok a) :=
  ⟨fun _ e => Except.ok.inj e ▸ h, fun _ e => (nomatch e)⟩

theorem malformed : Scans s rest (.error .malformed) :=
  ⟨fun _ e => (nomatch e), fun _ e => Or.inl (Except.error.inj e).symm⟩

theorem of_suffix (h : t <:+ s) {x : Except Fault α} (hx : Scans t rest x) : Scans s rest x :=
  ⟨fun a e => (hx.suffix a e).trans h, fun f e => (hx.fault f e).of_suffix h⟩

theorem bind {x : Except Fault α} {k : α → Except Fault β} (hx : Scans s rest x)
    (hk : ∀ a, Scans (rest a) rest' (k a)) : Scans s rest' (x >>= k) := by
  cases x with
  | ok a => exact (hk a).of_suffix (hx.suffix a rfl)
  | error f => exact ⟨fun _ e => (nomatch e), fun f' e => hx.fault f' (by cases e; rfl)⟩

theorem map {x : Except Fault α} {g : α → β} (hx : Scans s rest x)
    (hg : ∀ a, rest' (g a) = rest a) : Scans s rest' (x.map g) := by
  cases x with
  | ok a => exact ok (hg a ▸ hx.suffix a rfl)
  | error f => exact ⟨fun _ e => (nomatch e), fun f' e => hx.fault f' (by cases e; rfl)⟩

theorem ite {c : Prop} [Decidable c] {x y : Except Fault α} (hx : Scans s rest x)
    (hy : Scans s rest y) : Scans s rest (if c then x else y) := by
  split
  · exact hx
  · exact hy

end Scans

/-- What is left of the text after a scan with a result. -/
def left {α : Type} (a : α × Cursor) : List Char := a.2.rest

/-! ## Plain scalars -/

theorem plainBreaks_suffix (fuel : Nat) (k : Cursor) :
    (plainBreaks fuel k).2.rest <:+ k.rest := by
  induction fuel generalizing k with
  | zero => exact List.suffix_rfl
  | succ fuel ih =>
    unfold plainBreaks
    split
    · exact List.suffix_rfl
    · have hbreak := (takeBreak_suffix k.skipSpaces).trans (skipSpaces_suffix k)
      dsimp only
      split
      · exact skipSpaces_suffix k
      · rename_i hk
        rw [hk] at hbreak
        exact (ih _).trans hbreak

theorem plainSpaces_suffix (k : Cursor) : (plainSpaces k).2.rest <:+ k.rest := by
  unfold plainSpaces
  have hskip := skip_suffix (k.run (· == ' ')).length k
  have hbreak := (takeBreak_suffix _).trans hskip
  dsimp only
  split
  · exact hskip
  · rename_i first k₁ _ hk
    rw [hk] at hbreak
    have hmore := (plainBreaks_suffix (k₁.rest.length + 1) k₁).trans hbreak
    split
    · exact hmore
    · exact hmore

theorem plainFrom_suffix (inFlow : Bool) (indent fuel : Nat) (spaces : List Char) (ended : Bool)
    (k : Cursor) : (plainFrom inFlow indent fuel spaces ended k).2.rest <:+ k.rest := by
  induction fuel generalizing spaces ended k with
  | zero => exact List.suffix_rfl
  | succ fuel ih =>
    unfold plainFrom
    generalize (if k.peek = some '#' then [] else plainRun inFlow k.rest) = text
    have hspaces := (plainSpaces_suffix _).trans (skip_suffix text.length k)
    dsimp only
    split
    · exact List.suffix_rfl
    split
    · exact hspaces
    · exact (ih _ _ _).trans hspaces

theorem scanPlain_suffix (inFlow : Bool) (indent : Nat) (k : Cursor) :
    (scanPlain inFlow indent k).2.rest <:+ k.rest :=
  plainFrom_suffix inFlow indent _ _ _ k

/-! ## Block scalars -/

theorem scans_increment (s : List Char) (c : Char) : Scans s (fun _ => s) (increment? c) := by
  unfold increment?
  split
  · exact Scans.malformed
  split
  · exact Scans.ok List.suffix_rfl
  · exact Scans.ok List.suffix_rfl

theorem takeChomping_suffix (k : Cursor) :
    (scanIndicators.takeChomping k).2.rest <:+ k.rest := by
  unfold scanIndicators.takeChomping
  split
  · exact next_suffix k
  · exact List.suffix_rfl

theorem scans_takeIncrement (k : Cursor) :
    Scans k.rest left (scanIndicators.takeIncrement k) := by
  unfold scanIndicators.takeIncrement
  split
  · exact Scans.ok List.suffix_rfl
  · rename_i c _
    cases hi : increment? c with
    | ok i =>
      refine Scans.ok ?_
      show (if i.isSome then k.next else k).rest <:+ k.rest
      split
      · exact next_suffix k
      · exact List.suffix_rfl
    | error f =>
      exact ⟨fun _ e => (nomatch e), fun f' e => (scans_increment _ c).fault f' (by
        cases e
        exact hi)⟩

theorem scans_scanIndicators (k : Cursor) : Scans k.rest left (scanIndicators k) := by
  unfold scanIndicators
  dsimp only
  refine Scans.of_suffix (takeChomping_suffix k) ?_
  refine (scans_takeIncrement _).bind fun (i, k₁) => ?_
  dsimp only
  split
  · refine Scans.ok ?_
    dsimp only [left]
    split
    · exact takeChomping_suffix k₁
    · exact List.suffix_rfl
  · exact Scans.malformed

theorem scans_scanIgnoredLine (k : Cursor) : Scans k.rest Cursor.rest (scanIgnoredLine k) := by
  have hspaces := skipSpaces_suffix k
  have hcomment : (if k.skipSpaces.peek = some '#' then k.skipSpaces.skipLine
      else k.skipSpaces).rest <:+ k.rest := by
    split
    · exact (skipLine_suffix _).trans hspaces
    · exact hspaces
  unfold scanIgnoredLine
  dsimp only
  generalize (if k.skipSpaces.peek = some '#' then k.skipSpaces.skipLine
    else k.skipSpaces) = k₁ at hcomment
  split
  · exact Scans.ok ((takeBreak_suffix k₁).trans hcomment)
  · exact Scans.malformed

theorem blockBreaks_suffix (indent fuel : Nat) (k : Cursor) :
    (blockBreaks indent fuel k).2.rest <:+ k.rest := by
  induction fuel generalizing k with
  | zero => exact List.suffix_rfl
  | succ fuel ih =>
    unfold blockBreaks
    have hbreak := (takeBreak_suffix _).trans (skipIndent_suffix indent k)
    dsimp only
    split
    · exact skipIndent_suffix indent k
    · rename_i hk
      rw [hk] at hbreak
      exact (ih _).trans hbreak

theorem leadingBreaks_suffix (fuel widest : Nat) (k : Cursor) :
    (leadingBreaks fuel widest k).2.2.rest <:+ k.rest := by
  induction fuel generalizing widest k with
  | zero => exact List.suffix_rfl
  | succ fuel ih =>
    unfold leadingBreaks
    have hbreak := (takeBreak_suffix _).trans (skipSpaces_suffix k)
    dsimp only
    split
    · exact skipSpaces_suffix k
    · rename_i hk
      rw [hk] at hbreak
      exact (ih _ _).trans hbreak

theorem blockLines_suffix (folded : Bool) (indent fuel : Nat) (breaks : List Char) (k : Cursor) :
    (blockLines folded indent fuel breaks k).2.rest <:+ k.rest := by
  induction fuel generalizing breaks k with
  | zero => exact List.suffix_rfl
  | succ fuel ih =>
    unfold blockLines
    have hline := (takeBreak_suffix _).trans (skip_suffix (k.run (!isBreak ·)).length k)
    have hafter := (blockBreaks_suffix indent
      ((k.skip (k.run (!isBreak ·)).length).takeBreak.2.rest.length + 1) _).trans hline
    dsimp only
    split
    · exact (ih _ _).trans hafter
    · exact hafter

theorem scans_scanBlock (folded : Bool) (parent : Option Nat) (k : Cursor) :
    Scans k.rest left (scanBlock folded parent k) := by
  unfold scanBlock
  refine Scans.of_suffix (next_suffix k) ?_
  refine (scans_scanIndicators k.next).bind fun ((chomping, increment), k₁) => ?_
  dsimp only
  refine (scans_scanIgnoredLine k₁).bind fun k₂ => ?_
  refine Scans.ok ?_
  cases increment with
  | some n =>
    have hbreaks := fun indent => blockBreaks_suffix indent (k₂.rest.length + 1) k₂
    dsimp only [left]
    split
    · exact (blockLines_suffix _ _ _ _ _).trans (hbreaks _)
    · exact hbreaks _
  | none =>
    have hbreaks := leadingBreaks_suffix (k₂.rest.length + 1) 0 k₂
    dsimp only [left]
    split
    · exact (blockLines_suffix _ _ _ _ _).trans hbreaks
    · exact hbreaks

/-! ## Anchors, tags and directives -/

theorem scans_scanName (k : Cursor) : Scans k.rest left (scanName k) := by
  unfold scanName
  dsimp only
  split
  · exact Scans.malformed
  · exact Scans.ok ((skip_suffix _ _).trans (next_suffix k))

theorem scans_escapedBytes (fuel : Nat) (k : Cursor) :
    Scans k.rest left (escapedBytes fuel k) := by
  induction fuel generalizing k with
  | zero => exact Scans.ok List.suffix_rfl
  | succ fuel ih =>
    unfold escapedBytes
    split
    · split
      · exact Scans.of_suffix (skip_suffix 3 k) ((ih _).map fun _ => rfl)
      · exact Scans.malformed
    · exact Scans.malformed
    · exact Scans.ok List.suffix_rfl

theorem scans_scanUriFrom (fuel : Nat) (k : Cursor) : Scans k.rest left (scanUriFrom fuel k) := by
  induction fuel generalizing k with
  | zero => exact Scans.ok List.suffix_rfl
  | succ fuel ih =>
    unfold scanUriFrom
    split
    · exact Scans.ok List.suffix_rfl
    split
    · refine (scans_escapedBytes fuel k).bind fun (bytes, k₁) => ?_
      dsimp only
      split
      · exact Scans.malformed
      · refine (ih k₁).bind fun (more, k₂) => ?_
        exact Scans.ok List.suffix_rfl
    split
    · exact Scans.of_suffix (next_suffix k) ((ih _).map fun _ => rfl)
    · exact Scans.ok List.suffix_rfl

theorem scans_scanUri (k : Cursor) : Scans k.rest left (scanUri k) := by
  unfold scanUri
  refine (scans_scanUriFrom _ k).bind fun (uri, after) => ?_
  dsimp only
  split
  · exact Scans.malformed
  · exact Scans.ok List.suffix_rfl

theorem scans_scanHandle (k : Cursor) : Scans k.rest left (scanHandle k) := by
  unfold scanHandle
  split
  · exact Scans.malformed
  split
  · exact Scans.ok (next_suffix k)
  dsimp only
  split
  · exact Scans.ok (((next_suffix _).trans (skip_suffix _ _)).trans (next_suffix k))
  · exact Scans.malformed

theorem scans_scanTag (k : Cursor) : Scans k.rest left (scanTag k) := by
  have hend : ∀ (handle? : Option (List Char)) (suffix : List Char) (k₁ : Cursor),
      Scans k₁.rest left (if endsPart k₁.peek = true then
        Except.ok (Token.tag handle? suffix, k₁) else .error .malformed) := by
    intro handle? suffix k₁
    split
    · exact Scans.ok List.suffix_rfl
    · exact Scans.malformed
  unfold scanTag
  dsimp only
  split
  · refine Scans.of_suffix (skip_suffix 2 k) ?_
    refine (scans_scanUri _).bind fun (uri, k₁) => ?_
    dsimp only
    split
    · exact Scans.malformed
    · exact Scans.of_suffix (next_suffix k₁) (hend none uri k₁.next)
  split
  · exact Scans.of_suffix (next_suffix k) (hend none ['!'] k.next)
  split
  · refine (scans_scanHandle k).bind fun (handle, k₁) => ?_
    exact (scans_scanUri k₁).bind fun (uri, k₂) => hend (some handle) uri k₂
  · refine Scans.of_suffix (next_suffix k) ?_
    exact (scans_scanUri k.next).bind fun (uri, k₁) => hend (some ['!']) uri k₁

theorem scans_scanNumber (k : Cursor) : Scans k.rest left (scanNumber k) := by
  unfold scanNumber
  dsimp only
  split
  · exact Scans.malformed
  · exact Scans.ok (skip_suffix _ k)

theorem scans_scanVersion (k : Cursor) : Scans k.rest left (scanVersion k) := by
  unfold scanVersion
  refine Scans.of_suffix (skipSpaces_suffix k) ?_
  refine (scans_scanNumber _).bind fun (major, k₁) => ?_
  dsimp only
  split
  · exact Scans.malformed
  refine Scans.of_suffix (next_suffix k₁) ?_
  refine (scans_scanNumber _).bind fun (minor, k₂) => ?_
  dsimp only
  split
  · exact Scans.ok List.suffix_rfl
  · exact Scans.malformed

theorem scans_scanTagDirective (k : Cursor) : Scans k.rest left (scanTagDirective k) := by
  unfold scanTagDirective
  refine Scans.of_suffix (skipSpaces_suffix k) ?_
  refine (scans_scanHandle _).bind fun (handle, k₁) => ?_
  dsimp only
  split
  · exact Scans.malformed
  refine Scans.of_suffix (skipSpaces_suffix k₁) ?_
  refine (scans_scanUri _).bind fun (uri, k₂) => ?_
  dsimp only
  split
  · exact Scans.ok List.suffix_rfl
  · exact Scans.malformed

theorem scans_scanDirective (k : Cursor) : Scans k.rest left (scanDirective k) := by
  have hend : ∀ (directive : Directive) (k₁ : Cursor),
      Scans k₁.rest left (scanIgnoredLine k₁ >>= fun k₂ =>
        Except.ok (Token.directive directive, k₂)) := fun directive k₁ =>
    (scans_scanIgnoredLine k₁).bind fun k₂ => Scans.ok List.suffix_rfl
  have hname := (skip_suffix (k.next.run isWordChar).length _).trans (next_suffix k)
  unfold scanDirective
  dsimp only
  split
  · exact Scans.malformed
  refine Scans.of_suffix hname ?_
  split
  · exact (scans_scanVersion _).bind fun (directive, k₁) => hend directive k₁
  split
  · exact (scans_scanTagDirective _).bind fun (directive, k₁) => hend directive k₁
  · exact Scans.of_suffix (skipLine_suffix _) (hend .other _)

/-! ## Quoted scalars -/

theorem pointOfCode_eq_error {code : Nat} {f : Fault} (h : pointOfCode code = .error f) :
    f = .badValue ∨ f = .tooLarge ∧ 2 ^ 31 ≤ code := by
  unfold pointOfCode at h
  split at h
  · cases h
  split at h
  · exact Or.inl (Except.error.inj h).symm
  · have hbig : 2 ^ 31 ≤ code := by omega
    exact Or.inr ⟨(Except.error.inj h).symm, hbig⟩

theorem escapeWidth?_eq_some {c : Char} {width : Nat} (h : escapeWidth? c = some width) :
    width ≤ 4 ∨ c = 'U' ∧ width = 8 := by
  unfold escapeWidth? at h
  split at h
  · cases h
    exact Or.inl (by decide)
  · cases h
    exact Or.inl (by decide)
  · cases h
    exact Or.inr ⟨rfl, rfl⟩
  · cases h

/-- A code of more than 31 bits is written behind a `U`. -/
theorem scans_scanCode {c : Char} {width : Nat} {k : Cursor} (hk : k.peek = some c)
    (hwidth : escapeWidth? c = some width) :
    Scans ('\\' :: k.rest) left (scanCode width k.next) := by
  obtain ⟨rest, hrest⟩ : ∃ rest, k.rest = c :: rest := List.head?_eq_some_iff.mp hk
  have hnext : k.next.rest = rest := by
    rw [rest_next, hrest]
    rfl
  have hsuffix : rest <:+ '\\' :: k.rest := by
    rw [hrest]
    exact (List.suffix_cons c rest).trans (List.suffix_cons _ _)
  unfold scanCode
  dsimp only
  split
  · rename_i hdigits
    rw [hnext] at hdigits ⊢
    cases hcode : pointOfCode (valueOf 16 (rest.take width)) with
    | ok d =>
      refine Scans.ok ((skip_suffix width k.next).trans ?_)
      rw [hnext]
      exact hsuffix
    | error f =>
      refine ⟨fun _ e => (nomatch e), fun f' e => ?_⟩
      obtain rfl : f = f' := by
        cases e
        rfl
      rcases pointOfCode_eq_error hcode with hf | ⟨hf, hbig⟩
      · exact Or.inr (Or.inl hf)
      · refine Or.inr (Or.inr ⟨hf, rest.take width, ?_⟩)
        have hlt := Number.valueOf_lt hdigits.2
        rw [hdigits.1] at hlt
        rcases escapeWidth?_eq_some hwidth with hle | ⟨rfl, rfl⟩
        · have hpow : 16 ^ width ≤ 16 ^ 4 := Nat.pow_le_pow_right (by decide) hle
          omega
        · rw [hrest]
          refine ⟨List.IsPrefix.isInfix ?_, hdigits.1, hdigits.2, hbig⟩
          simp only [List.cons_prefix_cons, true_and]
          exact List.take_prefix 8 rest
  · exact Scans.malformed

theorem scans_scanBreaks (fuel : Nat) (k : Cursor) : Scans k.rest left (scanBreaks fuel k) := by
  induction fuel generalizing k with
  | zero => exact Scans.malformed
  | succ fuel ih =>
    unfold scanBreaks
    split
    · exact Scans.malformed
    have hblank := skipWhile_suffix (fun c => c == ' ' || c == '\t') k
    have hbreak := (takeBreak_suffix _).trans hblank
    dsimp only
    split
    · exact Scans.ok hblank
    · rename_i hk
      rw [hk] at hbreak
      exact Scans.of_suffix hbreak ((ih _).map fun _ => rfl)

theorem scans_scanEscape (fuel : Nat) (k : Cursor) :
    Scans ('\\' :: k.rest) left (scanEscape fuel k) := by
  have hcons : k.rest <:+ '\\' :: k.rest := List.suffix_cons _ _
  unfold scanEscape
  split
  · exact Scans.malformed
  rename_i c hk
  split
  · exact Scans.ok ((next_suffix k).trans hcons)
  split
  · rename_i hwidth
    exact (scans_scanCode hk hwidth).map fun _ => rfl
  split
  · refine Scans.of_suffix ((takeBreak_suffix k).trans hcons) ?_
    exact (scans_scanBreaks fuel _).map fun _ => rfl
  · exact Scans.malformed

theorem scans_scanQuotedSpaces (fuel : Nat) (k : Cursor) :
    Scans k.rest left (scanQuotedSpaces fuel k) := by
  have hskip := skip_suffix (k.run fun c => c == ' ' || c == '\t').length k
  have hbreak := (takeBreak_suffix _).trans hskip
  unfold scanQuotedSpaces
  dsimp only
  split
  · exact Scans.malformed
  split
  · exact Scans.ok hskip
  · rename_i hk
    rw [hk] at hbreak
    exact Scans.of_suffix hbreak ((scans_scanBreaks fuel _).map fun _ => rfl)

theorem scans_scanQuotedFrom (double : Bool) (fuel : Nat) (k : Cursor) :
    Scans k.rest left (scanQuotedFrom double fuel k) := by
  induction fuel generalizing k with
  | zero => exact Scans.malformed
  | succ fuel ih =>
    unfold scanQuotedFrom
    split
    · exact Scans.malformed
    rename_i c rest hk
    generalize (if double = true then '"' else '\'') = closing
    split
    · exact Scans.of_suffix (skip_suffix 2 k) ((ih _).map fun _ => rfl)
    split
    · exact Scans.ok (next_suffix k)
    split
    · rename_i hslash
      have hback : k.rest = '\\' :: k.next.rest := by
        rw [Bool.and_eq_true, beq_iff_eq] at hslash
        rw [rest_next, hk, hslash.2]
        rfl
      rw [hback]
      refine (scans_scanEscape fuel k.next).bind fun (front, k₁) => ?_
      exact (ih k₁).bind fun (back, k₂) => Scans.ok List.suffix_rfl
    split
    · refine (scans_scanQuotedSpaces fuel k).bind fun (front, k₁) => ?_
      exact (ih k₁).bind fun (back, k₂) => Scans.ok List.suffix_rfl
    · exact Scans.of_suffix (next_suffix k) ((ih _).map fun _ => rfl)

theorem scans_scanQuoted (double : Bool) (k : Cursor) :
    Scans k.rest left (scanQuoted double k) :=
  Scans.of_suffix (next_suffix k) (scans_scanQuotedFrom double _ _)

/-! ## Tokens -/

namespace Scanner

/-- The text that the scanner has still to read. -/
def ahead (s : Scanner) : List Char := s.cursor.rest

theorem ahead_closeBlocks (column? : Option Nat) (s : Scanner) :
    (s.closeBlocks column?).ahead = s.ahead := by
  unfold closeBlocks
  split <;> rfl

theorem ahead_openBlock (s : Scanner) (column position : Nat) (t : Token) :
    (s.openBlock column position t).ahead = s.ahead := by
  unfold openBlock
  split <;> rfl

theorem ahead_openBlockHere (s : Scanner) (t : Token) : (s.openBlockHere t).ahead = s.ahead :=
  ahead_openBlock s _ _ t

theorem mark_suffix (s : Scanner) (width : Nat) (t : Token) : (s.mark width t).ahead <:+ s.ahead :=
  skip_suffix width s.cursor

theorem skipBlank_suffix (fuel : Nat) (s : Scanner) : (skipBlank fuel s).ahead <:+ s.ahead := by
  induction fuel generalizing s with
  | zero => exact List.suffix_rfl
  | succ fuel ih =>
    have hcomment : (if s.cursor.skipSpaces.peek = some '#' then s.cursor.skipSpaces.skipLine
        else s.cursor.skipSpaces).rest <:+ s.ahead := by
      split
      · exact (skipLine_suffix _).trans (skipSpaces_suffix s.cursor)
      · exact skipSpaces_suffix s.cursor
    unfold skipBlank
    dsimp only
    generalize (if s.cursor.skipSpaces.peek = some '#' then s.cursor.skipSpaces.skipLine
      else s.cursor.skipSpaces) = k at hcomment
    have hbreak := (takeBreak_suffix k).trans hcomment
    split
    · exact hcomment
    · rename_i hk
      rw [hk] at hbreak
      exact (ih _).trans hbreak

theorem skipToToken_suffix (s : Scanner) : s.skipToToken.ahead <:+ s.ahead := by
  have hmark : (if s.cursor.index = 0 ∧ s.cursor.peek = some '\ufeff' then s.cursor.next
      else s.cursor).rest <:+ s.ahead := by
    split
    · exact next_suffix s.cursor
    · exact List.suffix_rfl
  exact (skipBlank_suffix _ _).trans hmark

theorem scans_giveUp (s : List Char) (key? : Option PossibleKey) :
    Scans s (fun _ => s) (giveUp key?) := by
  unfold giveUp
  split
  · split
    · exact Scans.malformed
    · exact Scans.ok List.suffix_rfl
  · exact Scans.ok List.suffix_rfl

theorem scans_dropStale (s : List Char) (k : Cursor) (keys : List (Option PossibleKey)) :
    Scans s (fun _ => s) (dropStale k keys) := by
  induction keys with
  | nil => exact Scans.ok List.suffix_rfl
  | cons key? rest ih =>
    rw [dropStale]
    split
    · exact (scans_giveUp s key?).bind fun _ => ih.bind fun _ => Scans.ok List.suffix_rfl
    · exact ih.bind fun _ => Scans.ok List.suffix_rfl

theorem scans_removeKey (s : Scanner) : Scans s.ahead ahead s.removeKey := by
  unfold removeKey
  split
  · exact Scans.ok List.suffix_rfl
  · exact (scans_giveUp s.ahead _).map fun _ => rfl

theorem scans_saveKey (s : Scanner) : Scans s.ahead ahead s.saveKey := by
  unfold saveKey
  split
  · exact Scans.ok List.suffix_rfl
  · exact (scans_removeKey s).bind fun s₁ => Scans.ok List.suffix_rfl

theorem scans_demandAllowed (s : Scanner) : Scans s.ahead (fun _ => s.ahead) s.demandAllowed := by
  unfold demandAllowed
  split
  · exact Scans.ok List.suffix_rfl
  · exact Scans.malformed

theorem scans_scanFlowStart (s : Scanner) (t : Token) :
    Scans s.ahead ahead (s.scanFlowStart t) :=
  (scans_saveKey s).bind fun _ => Scans.ok (mark_suffix _ 1 t)

theorem scans_scanFlowEnd (s : Scanner) (t : Token) : Scans s.ahead ahead (s.scanFlowEnd t) := by
  unfold scanFlowEnd
  split
  · exact Scans.malformed
  · exact (scans_removeKey s).bind fun s₁ => Scans.ok (mark_suffix _ 1 t)

theorem scans_scanFlowEntry (s : Scanner) : Scans s.ahead ahead s.scanFlowEntry :=
  (scans_removeKey (s.allow true)).bind fun s₁ => Scans.ok (mark_suffix s₁ 1 _)

theorem scans_scanBlockEntry (s : Scanner) : Scans s.ahead ahead s.scanBlockEntry := by
  refine (scans_demandAllowed s).bind fun _ => ?_
  rw [← ahead_openBlockHere s .blockSequenceStart]
  exact (scans_removeKey ((s.openBlockHere .blockSequenceStart).allow true)).bind fun s₁ =>
    Scans.ok (mark_suffix s₁ 1 _)

theorem scans_scanKey (s : Scanner) : Scans s.ahead ahead s.scanKey := by
  refine (scans_demandAllowed s).bind fun _ => ?_
  have hopen := ahead_openBlockHere s .blockMappingStart
  dsimp only
  generalize s.openBlockHere .blockMappingStart = s₁ at hopen ⊢
  rw [← hopen]
  exact (scans_removeKey (s₁.allow !s₁.inFlow)).bind fun s₂ => Scans.ok (mark_suffix s₂ 1 _)

theorem ahead_insertKey (s : Scanner) (key : PossibleKey) :
    (s.insertKey key).ahead = s.ahead :=
  ahead_openBlock _ key.column key.position .blockMappingStart

theorem scans_scanValue (s : Scanner) : Scans s.ahead ahead s.scanValue := by
  unfold scanValue
  split
  · rename_i key rest _
    refine Scans.ok ((mark_suffix _ 1 _).trans ?_)
    have hkey := ahead_insertKey { s with keys := none :: rest } key
    exact hkey ▸ List.suffix_rfl
  · refine (scans_demandAllowed s).bind fun _ => ?_
    have hopen := ahead_openBlockHere s .blockMappingStart
    dsimp only
    generalize s.openBlockHere .blockMappingStart = s₁ at hopen ⊢
    rw [← hopen]
    exact (scans_removeKey (s₁.allow !s₁.inFlow)).bind fun s₂ => Scans.ok (mark_suffix s₂ 1 _)

theorem scans_scanNodeStart (s : Scanner) {scan : Cursor → Except Fault (Token × Cursor)}
    (hscan : ∀ k, Scans k.rest left (scan k)) : Scans s.ahead ahead (s.scanNodeStart scan) := by
  refine (scans_saveKey s).bind fun s₁ => ?_
  exact (hscan s₁.cursor).bind fun (t, k) => Scans.ok List.suffix_rfl

theorem scans_scanPlainScalar (s : Scanner) : Scans s.ahead ahead s.scanPlainScalar := by
  refine (scans_saveKey s).bind fun s₁ => ?_
  exact Scans.ok (scanPlain_suffix _ _ s₁.cursor)

theorem scans_scanBlockScalar (s : Scanner) (folded : Bool) :
    Scans s.ahead ahead (s.scanBlockScalar folded) := by
  refine (scans_removeKey (s.allow true)).bind fun s₁ => ?_
  exact (scans_scanBlock folded s₁.indents.head? s₁.cursor).bind fun (text, k) =>
    Scans.ok List.suffix_rfl

theorem scans_scanStreamEnd (s : Scanner) : Scans s.ahead ahead s.scanStreamEnd := by
  rw [← ahead_closeBlocks none s]
  exact (scans_removeKey (s.closeBlocks none)).bind fun s₁ => Scans.ok List.suffix_rfl

theorem scans_scanDirectiveLine (s : Scanner) : Scans s.ahead ahead s.scanDirectiveLine := by
  rw [← ahead_closeBlocks none s]
  refine (scans_removeKey (s.closeBlocks none)).bind fun s₁ => ?_
  exact (scans_scanDirective s₁.cursor).bind fun (t, k) => Scans.ok List.suffix_rfl

theorem scans_scanMarker (s : Scanner) (t : Token) : Scans s.ahead ahead (s.scanMarker t) := by
  rw [← ahead_closeBlocks none s]
  exact (scans_removeKey (s.closeBlocks none)).bind fun s₁ => Scans.ok (mark_suffix _ 3 t)

theorem scans_scanToken (s : Scanner) : Scans s.ahead ahead s.scanToken := by
  have hname : ∀ (mark : List Char → Token) (k : Cursor),
      Scans k.rest left ((scanName k).map fun p => (mark p.1, p.2)) :=
    fun mark k => (scans_scanName k).map fun _ => rfl
  have hquoted : ∀ (double : Bool) (k : Cursor),
      Scans k.rest left ((scanQuoted double k).map fun p => (Token.scalar p.1 false, p.2)) :=
    fun double k => (scans_scanQuoted double k).map fun _ => rfl
  unfold scanToken
  dsimp only
  split
  · exact scans_scanStreamEnd s
  -- one rule after the other, in the order in which they are tried
  refine Scans.ite (scans_scanDirectiveLine s) ?_
  refine Scans.ite (scans_scanMarker s _) ?_
  refine Scans.ite (scans_scanFlowStart s _) ?_
  refine Scans.ite (scans_scanFlowStart s _) ?_
  refine Scans.ite (scans_scanFlowEnd s _) ?_
  refine Scans.ite (scans_scanFlowEnd s _) ?_
  refine Scans.ite (scans_scanFlowEntry s) ?_
  refine Scans.ite (scans_scanBlockEntry s) ?_
  refine Scans.ite (scans_scanKey s) ?_
  refine Scans.ite (scans_scanValue s) ?_
  refine Scans.ite (scans_scanNodeStart s (hname .alias)) ?_
  refine Scans.ite (scans_scanNodeStart s (hname .anchor)) ?_
  refine Scans.ite (scans_scanNodeStart s scans_scanTag) ?_
  refine Scans.ite (scans_scanBlockScalar s _) ?_
  refine Scans.ite (scans_scanBlockScalar s _) ?_
  refine Scans.ite (scans_scanNodeStart s (hquoted _)) ?_
  exact Scans.ite (scans_scanPlainScalar s) Scans.malformed

theorem scans_step (s : Scanner) : Scans s.ahead ahead s.step := by
  refine Scans.of_suffix (skipToToken_suffix s) ?_
  refine (scans_dropStale _ s.skipToToken.cursor s.skipToToken.keys).bind fun keys => ?_
  have hclose := ahead_closeBlocks (some s.skipToToken.cursor.column)
    { s.skipToToken with keys := keys }
  have hscan := scans_scanToken (closeBlocksHere { s.skipToToken with keys := keys })
  rwa [closeBlocksHere, hclose] at hscan

end Scanner

/-- What stops the tokens of a text short is a fault in the text. -/
theorem fault_ofText {text : List Char} {f : Fault}
    (h : (TokenStream.ofText text).fault? = some f) : FaultIn text f := by
  have hfrom : ∀ fuel (s : Scanner), s.ahead <:+ text →
      (TokenStream.scanFrom fuel s).fault? = some f → FaultIn text f := by
    intro fuel
    induction fuel with
    | zero =>
      intro s _ h
      exact Or.inl (Option.some.inj h).symm
    | succ fuel ih =>
      intro s hs h
      rw [TokenStream.scanFrom] at h
      cases hstep : s.step with
      | error f' =>
        rw [hstep] at h
        obtain rfl : f' = f := Option.some.inj h
        exact ((Scanner.scans_step s).fault f' hstep).of_suffix hs
      | ok s₁ =>
        rw [hstep] at h
        dsimp only at h
        split at h
        · cases h
        · exact ih s₁ (((Scanner.scans_step s).suffix s₁ hstep).trans hs) h
  exact hfrom _ _ List.suffix_rfl h

end Yaml
end DbImage
