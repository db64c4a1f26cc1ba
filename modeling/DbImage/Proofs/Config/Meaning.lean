import DbImage.Config.Check
import DbImage.Proofs.Number.Numeral
import DbImage.Proofs.Text.Utf8
import Mathlib.Data.List.Forall2

/-!
# What a value stands for

A check gives what a value stands for, or says what is wrong with it.  `TextOf`, `CredentialOf`,
`TruthOf` and `OptionalOf` say what single values stand for without saying how it is found out.  Each
check is `Exact`: it gives what the value stands for and nothing else, and where the value stands for
nothing it has something to say.  `FaultsAt` says where in the value.
-/

namespace DbImage

open Number (digitLimit)
open Text.Utf8 (fromUTF8?_eq_some_iff)

/-! ## Issues and their places -/

/-- Some issue is at the place, as far as `depth` steps into the value tell. -/
def FaultsAt (depth : Nat) (issues : List Issue) (place : List Step) : Prop :=
  ∃ issue ∈ issues, issue.place.take depth = place

section

variable {α : Type} {depth : Nat} {issues : List Issue} {place : List Step}

@[simp]
theorem faultsAt_nil : ¬ FaultsAt depth [] place := by
  simp [FaultsAt]

theorem faultsAt_append {others : List Issue} :
    FaultsAt depth (issues ++ others) place ↔
      FaultsAt depth issues place ∨ FaultsAt depth others place := by
  simp only [FaultsAt, List.mem_append, or_and_right, exists_or]

theorem faultsAt_flatten {parts : List (List Issue)} :
    FaultsAt depth parts.flatten place ↔ ∃ part ∈ parts, FaultsAt depth part place := by
  simp only [FaultsAt, List.mem_flatten]
  constructor
  · rintro ⟨issue, ⟨part, hpart, hissue⟩, hplace⟩
    exact ⟨part, hpart, issue, hissue, hplace⟩
  · rintro ⟨part, hpart, issue, hissue, hplace⟩
    exact ⟨issue, ⟨part, hpart, hissue⟩, hplace⟩

/-- From outside, every issue lies in the value. -/
theorem faultsAt_zero : FaultsAt 0 issues place ↔ issues ≠ [] ∧ place = [] := by
  simp only [FaultsAt, List.take_zero]
  constructor
  · rintro ⟨issue, hissue, rfl⟩
    exact ⟨List.ne_nil_of_mem hissue, rfl⟩
  · rintro ⟨hne, rfl⟩
    obtain ⟨issue, hissue⟩ := List.exists_mem_of_ne_nil _ hne
    exact ⟨issue, hissue, rfl⟩

theorem faultsAt_inside {r : Checked α} {step : Step} :
    FaultsAt (depth + 1) (r.inside step).issues place ↔
      ∃ rest, place = step :: rest ∧ FaultsAt depth r.issues rest := by
  have hissues : (r.inside step).issues = r.issues.map (Issue.within step) := by
    cases r <;> rfl
  rw [hissues]
  constructor
  · rintro ⟨_, hmem, rfl⟩
    obtain ⟨issue, hissue, rfl⟩ := List.mem_map.mp hmem
    exact ⟨issue.place.take depth, rfl, issue, hissue, rfl⟩
  · rintro ⟨_, rfl, issue, hissue, rfl⟩
    exact ⟨_, List.mem_map_of_mem hissue, rfl⟩

end

namespace Checked

variable {α : Type} {r : Checked α} {step : Step}

theorem inside_eq_ok {a : α} : r.inside step = .ok a ↔ r = .ok a := by
  cases r with
  | ok b => exact Iff.rfl
  | error issues => exact ⟨fun h => (nomatch h), fun h => (nomatch h)⟩

theorem inside_ne_error_nil (h : r ≠ .error []) : r.inside step ≠ .error [] := by
  cases r with
  | ok a => exact fun h => (nomatch h)
  | error issues =>
    intro he
    rw [inside, Except.mapError, Except.error.injEq, List.map_eq_nil_iff] at he
    exact h (congrArg _ he)

/-- Where a failure has something to say, no issue means success. -/
theorem issues_eq_nil_iff (h : r ≠ .error []) : r.issues = [] ↔ ∃ a, r = .ok a := by
  cases r with
  | ok a => exact iff_of_true rfl ⟨a, rfl⟩
  | error issues =>
    refine iff_of_false (fun he => h (congrArg _ he)) fun ⟨a, ha⟩ => ?_
    cases ha

end Checked

namespace Checks

variable {α β : Type}

/-- The check gives `b` for exactly the values that stand for `b`, and never fails without an issue. -/
structure Exact (check : α → Checked β) (Of : α → β → Prop) : Prop where
  eq_ok_iff : ∀ {a b}, check a = .ok b ↔ Of a b
  ne_error_nil : ∀ {a}, check a ≠ .error []

/-- The check gives something, or makes one complaint about the value as a whole. -/
def Single (check : α → Checked β) : Prop :=
  ∀ a, (∃ b, check a = .ok b) ∨ ∃ c, check a = Checked.complain c

section

variable {check : α → Checked β} {Of : α → β → Prop}

theorem Single.exact (hs : Single check) (h : ∀ {a b}, check a = .ok b ↔ Of a b) : Exact check Of := by
  refine ⟨h, fun {a} => ?_⟩
  rcases hs a with ⟨b, hb⟩ | ⟨c, hc⟩
  · rw [hb]
    exact fun h => (nomatch h)
  · rw [hc]
    exact fun h => (nomatch h)

theorem Exact.issues_ne_nil_iff (h : Exact check Of) {a : α} :
    (check a).issues ≠ [] ↔ ¬ ∃ b, Of a b := by
  rw [ne_eq, Checked.issues_eq_nil_iff h.ne_error_nil]
  simp only [h.eq_ok_iff]

theorem Exact.faultsAt_iff (h : Exact check Of) (hs : Single check) {a : α} {depth : Nat}
    {place : List Step} :
    FaultsAt depth (check a).issues place ↔ place = [] ∧ ¬ ∃ b, Of a b := by
  rw [← h.issues_ne_nil_iff]
  rcases hs a with ⟨b, hb⟩ | ⟨c, hc⟩
  · simp [hb, Checked.issues]
  · simp [hc, Checked.issues, Checked.complain, FaultsAt, eq_comm]

end

/-! ## Single values -/

/-- The text that a value stands for: itself, or what its bytes are the UTF-8 form of. -/
inductive TextOf : Datum LooseText → LooseText → Prop
  | text (s : LooseText) : TextOf (.scalar (.text s)) s
  | bytes (s : String) : TextOf (.scalar (.bytes s.toUTF8)) s

/-- The text of a value that may also be a number.  Whole numbers of more digits than are ever written
out have none. -/
inductive CredentialOf : Datum LooseText → LooseText → Prop
  | text {d : Datum LooseText} {s : LooseText} (h : TextOf d s) : CredentialOf d s
  | int (n : Int) (h : n.natAbs < 10 ^ digitLimit) : CredentialOf (.scalar (.int n)) (toString n)
  | float (x : Number.Double) : CredentialOf (.scalar (.float x)) x.toText

/-- A null stands for nothing, any other value for what it stands for anyway. -/
inductive OptionalOf (Of : Datum LooseText → β → Prop) : Datum LooseText → Option β → Prop
  | null : OptionalOf Of .null none
  | value {d : Datum LooseText} {b : β} (hne : d ≠ .null) (h : Of d b) : OptionalOf Of d (some b)

/-- The words for a truth value, in lower case. -/
def wordsFor (b : Bool) : List String :=
  if b then yesWords else noWords

def lowerAscii (s : String) : String :=
  String.ofList (s.toList.map Char.toLower)

/-- The truth value that a value stands for: 0 and 1 in any form of number, and the words. -/
inductive TruthOf : Datum LooseText → Bool → Prop
  | number {s : Scalar LooseText} {b : Bool} (h : s.number? = some (if b then 1 else 0)) :
    TruthOf (.scalar s) b
  | word {d : Datum LooseText} {s : String} {b : Bool} (htext : TextOf d s)
    (h : lowerAscii s ∈ wordsFor b) : TruthOf d b

theorem single_text : Single (text : Datum LooseText → Checked LooseText) := by
  intro d
  unfold text
  split
  · exact Or.inl ⟨_, rfl⟩
  · split
    · exact Or.inl ⟨_, rfl⟩
    · exact Or.inr ⟨_, rfl⟩
  · exact Or.inr ⟨_, rfl⟩

theorem exact_text : Exact text TextOf := by
  refine single_text.exact fun {d s} => ⟨fun h => ?_, ?_⟩
  · unfold text at h
    split at h
    · exact Except.ok.inj h ▸ .text _
    · split at h
      · rename_i hutf8
        rw [fromUTF8?_eq_some_iff] at hutf8
        exact hutf8 ▸ Except.ok.inj h ▸ .bytes _
      · cases h
    · cases h
  · rintro (_ | _)
    · rfl
    · simp only [text, fromUTF8?_eq_some_iff.mpr rfl]
      rfl

theorem single_credential : Single credential := by
  intro d
  unfold credential
  split
  · split
    · exact Or.inr ⟨_, rfl⟩
    · exact Or.inl ⟨_, rfl⟩
  · exact Or.inl ⟨_, rfl⟩
  · exact single_text _

theorem exact_credential : Exact credential CredentialOf := by
  refine single_credential.exact fun {d s} => ⟨fun h => ?_, ?_⟩
  · unfold credential at h
    split at h
    · split at h
      · cases h
      · rename_i n hshort
        rw [Number.digitLimit_lt_length_iff, Nat.not_le] at hshort
        exact Except.ok.inj h ▸ .int n hshort
    · exact Except.ok.inj h ▸ .float _
    · exact .text (exact_text.eq_ok_iff.mp h)
  · rintro (htext | ⟨n, hn⟩ | x)
    · cases htext with
      | text s => rfl
      | bytes s => exact exact_text.eq_ok_iff.mpr (.bytes s)
    · rw [credential, if_neg]
      rwa [Number.digitLimit_lt_length_iff, Nat.not_le]
    · rfl

theorem single_optional {check : Datum LooseText → Checked β} (hs : Single check) :
    Single (optional check) := by
  intro d
  unfold optional
  split
  · exact Or.inl ⟨none, rfl⟩
  · rcases hs d with ⟨b, hb⟩ | ⟨c, hc⟩
    · exact Or.inl ⟨some b, by rw [hb]; rfl⟩
    · exact Or.inr ⟨c, by rw [hc]; rfl⟩

theorem exact_optional {check : Datum LooseText → Checked β} {Of : Datum LooseText → β → Prop}
    (hs : Single check) (h : Exact check Of) : Exact (optional check) (OptionalOf Of) := by
  refine (single_optional hs).exact fun {d o} => ⟨fun ho => ?_, ?_⟩
  · unfold optional at ho
    split at ho
    · exact Except.ok.inj ho ▸ .null
    · rename_i hne
      cases hd : check d with
      | error issues =>
        rw [hd] at ho
        cases ho
      | ok b =>
        rw [hd] at ho
        exact Except.ok.inj ho ▸ .value (fun he => hne he) (h.eq_ok_iff.mp hd)
  · rintro (_ | ⟨hne, hof⟩)
    · rfl
    · unfold optional
      split
      · exact absurd rfl hne
      · rw [h.eq_ok_iff.mpr hof]
        rfl

theorem boolOfWord_eq_ok_iff {s : String} {b : Bool} :
    boolOfWord s = .ok b ↔ lowerAscii s ∈ wordsFor b := by
  have hapart : ∀ w ∈ noWords, w ∉ yesWords := by decide
  have hword : String.ofList (s.toList.map Char.toLower) = lowerAscii s := rfl
  simp only [boolOfWord, hword, List.contains_eq_mem, decide_eq_true_eq, wordsFor]
  split
  · rename_i hno
    cases b with
    | false => exact iff_of_true rfl hno
    | true => exact iff_of_false (fun h => (nomatch h)) (hapart _ hno)
  · rename_i hno
    split
    · rename_i hyes
      cases b with
      | false => exact iff_of_false (fun h => (nomatch h)) hno
      | true => exact iff_of_true rfl hyes
    · rename_i hyes
      cases b with
      | false => exact iff_of_false (fun h => (nomatch h)) hno
      | true => exact iff_of_false (fun h => (nomatch h)) hyes

theorem boolOfInt_eq_ok_iff {n : Int} {b : Bool} :
    boolOfInt n = .ok b ↔ n = if b then 1 else 0 := by
  unfold boolOfInt
  split
  · rename_i hzero
    cases b <;> simp [hzero]
  · rename_i hzero
    split
    · rename_i hone
      cases b <;> simp [hone]
    · rename_i hone
      cases b <;> simp [Checked.complain, hzero, hone]

theorem single_boolOfWord (s : String) :
    (∃ b, boolOfWord s = .ok b) ∨ ∃ c, boolOfWord s = Checked.complain c := by
  simp only [boolOfWord]
  split
  · exact Or.inl ⟨false, rfl⟩
  · split
    · exact Or.inl ⟨true, rfl⟩
    · exact Or.inr ⟨_, rfl⟩

theorem single_boolOfInt (n : Int) :
    (∃ b, boolOfInt n = .ok b) ∨ ∃ c, boolOfInt n = Checked.complain c := by
  unfold boolOfInt
  split
  · exact Or.inl ⟨false, rfl⟩
  · split
    · exact Or.inl ⟨true, rfl⟩
    · exact Or.inr ⟨_, rfl⟩

theorem single_bool : Single (bool : Datum LooseText → Checked Bool) := by
  intro d
  unfold bool
  split
  · exact Or.inl ⟨_, rfl⟩
  · split
    · exact single_boolOfWord _
    · exact Or.inr ⟨_, rfl⟩
  · split
    · exact single_boolOfWord _
    · exact Or.inr ⟨_, rfl⟩
  · split
    · exact single_boolOfInt _
    · exact Or.inr ⟨_, rfl⟩
  · split
    · split
      · exact single_boolOfInt _
      · exact Or.inr ⟨_, rfl⟩
    · exact Or.inr ⟨_, rfl⟩
  · exact Or.inr ⟨_, rfl⟩

theorem bool_of_number? {s : Scalar LooseText} {b : Bool} (h : s.number? = some (if b then 1 else 0)) :
    bool (.scalar s) = .ok b := by
  have hint : boolOfInt (if b then 1 else 0) = .ok b := boolOfInt_eq_ok_iff.mpr rfl
  cases s with
  | bool b' =>
    cases b <;> cases b' <;> first | rfl | cases h
  | int n =>
    obtain rfl : n = if b then 1 else 0 := Option.some.inj h
    have hsmall : -2 ^ 63 ≤ (if b then 1 else 0 : Int) ∧ (if b then 1 else 0 : Int) < 2 ^ 63 := by
      cases b <;> decide
    rw [bool, if_pos hsmall, hint]
  | float x =>
    have hx : x.toInt? = some (if b then 1 else 0) := h
    have hinner : isInner64 (if b then 1 else 0) = true := by cases b <;> decide
    simp only [bool, hx, hinner, if_true, hint]
  | null => cases h
  | text s => cases h
  | bytes bs => cases h
  | date d => cases h
  | moment m => cases h

theorem exact_bool : Exact bool TruthOf := by
  refine single_bool.exact fun {d b} => ⟨fun h => ?_, ?_⟩
  · unfold bool at h
    split at h
    · rename_i b'
      obtain rfl : b' = b := Except.ok.inj h
      exact .number rfl
    · split at h
      · rename_i hs
        rw [TextLike.toString?_eq_some_iff] at hs
        exact .word (hs ▸ .text _) (boolOfWord_eq_ok_iff.mp h)
      · cases h
    · split at h
      · rename_i hutf8
        rw [fromUTF8?_eq_some_iff] at hutf8
        exact hutf8 ▸ .word (.bytes _) (boolOfWord_eq_ok_iff.mp h)
      · cases h
    · split at h
      · exact .number (congrArg some (boolOfInt_eq_ok_iff.mp h))
      · cases h
    · split at h
      · rename_i n hn
        split at h
        · exact .number (hn.trans (congrArg some (boolOfInt_eq_ok_iff.mp h)))
        · cases h
      · cases h
    · cases h
  · intro h
    cases h with
    | number hnumber => exact bool_of_number? hnumber
    | @word _ s _ htext hword =>
      generalize ht : LooseText.ofString s = t at htext
      cases htext with
      | text _ =>
        simp only [bool, TextLike.toString?_eq_some_iff.mpr ht.symm]
        exact boolOfWord_eq_ok_iff.mpr hword
      | bytes _ =>
        obtain rfl := LooseText.ofString_inj.mp ht
        simp only [bool, fromUTF8?_eq_some_iff.mpr rfl]
        exact boolOfWord_eq_ok_iff.mpr hword

/-! ## Parts -/

/-- What the field of a mapping stands for, or what it is if it is missing. -/
def FieldOf (entries : Entries LooseText) (name : String) (missing : β)
    (Of : Datum LooseText → β → Prop) (b : β) : Prop :=
  match Datum.entry? entries name with
  | some d => Of d b
  | none => b = missing

section

variable {entries : Entries LooseText} {name : String} {missing : β}
  {check : Datum LooseText → Checked β} {Of : Datum LooseText → β → Prop} {depth : Nat}
  {place : List Step}

theorem entry_eq_ok_iff (h : Exact check Of) {b : β} :
    entry entries name missing check = .ok b ↔ FieldOf entries name missing Of b := by
  unfold entry FieldOf
  cases Datum.entry? entries name with
  | some d =>
    dsimp only
    rw [Checked.inside_eq_ok, h.eq_ok_iff]
  | none =>
    dsimp only
    rw [Except.ok.injEq, eq_comm]

theorem entry_ne_error_nil (h : Exact check Of) :
    entry entries name missing check ≠ .error [] := by
  unfold entry
  cases Datum.entry? entries name with
  | some d => exact Checked.inside_ne_error_nil h.ne_error_nil
  | none => exact fun he => (nomatch he)

theorem faultsAt_entry :
    FaultsAt (depth + 1) (entry entries name missing check).issues place ↔
      ∃ d rest, Datum.entry? entries name = some d ∧ place = .key name :: rest ∧
        FaultsAt depth (check d).issues rest := by
  unfold entry
  cases Datum.entry? entries name with
  | some d => simp [faultsAt_inside]
  | none => simp [Checked.issues]

/-- A field of a single value is an issue as a whole. -/
theorem faultsAt_entry_of_single (h : Exact check Of) (hs : Single check) :
    FaultsAt (depth + 1) (entry entries name missing check).issues place ↔
      ∃ d, Datum.entry? entries name = some d ∧ (¬ ∃ b, Of d b) ∧ place = [.key name] := by
  rw [faultsAt_entry]
  simp only [h.faultsAt_iff hs]
  constructor
  · rintro ⟨d, _, hd, rfl, rfl, hnone⟩
    exact ⟨d, hd, hnone, rfl⟩
  · rintro ⟨d, hd, hnone, rfl⟩
    exact ⟨d, [], hd, rfl, rfl, hnone⟩

end

/-- Of the keys that name no field, each is an issue at its own place. -/
theorem mem_strays {fields : List String} {entries : Entries LooseText} {issue : Issue} :
    issue ∈ strays fields entries ↔
      ∃ e ∈ entries, (∀ name ∈ fields, e.1 ≠ .text name) ∧
        ⟨[.ofKey e.1], strayComplaint e.1⟩ = issue := by
  simp only [strays, List.mem_filterMap, List.mem_map, exists_exists_and_eq_and]
  refine exists_congr fun e => and_congr_right fun _ => ?_
  by_cases he : ∃ name ∈ fields, Scalar.text ↑name = e.1
  · rw [if_pos he]
    obtain ⟨name, hname, hkey⟩ := he
    exact iff_of_false (fun h => (nomatch h)) fun h => h.1 name hname hkey.symm
  · rw [if_neg he, Option.some.injEq]
    refine (and_iff_right fun name hname hkey => he ⟨name, hname, hkey.symm⟩).symm

theorem faultsAt_strays {fields : List String} {entries : Entries LooseText} {depth : Nat}
    {place : List Step} :
    FaultsAt (depth + 1) (strays fields entries) place ↔
      ∃ e ∈ entries, (∀ name ∈ fields, e.1 ≠ .text name) ∧ place = [.ofKey e.1] := by
  simp only [FaultsAt, mem_strays]
  constructor
  · rintro ⟨_, ⟨e, he, hne, rfl⟩, rfl⟩
    exact ⟨e, he, hne, by simp⟩
  · rintro ⟨e, he, hne, rfl⟩
    exact ⟨_, ⟨e, he, hne, rfl⟩, by simp⟩

theorem strays_eq_nil_iff {fields : List String} {entries : Entries LooseText} :
    strays fields entries = [] ↔ ∀ e ∈ entries, ∃ name ∈ fields, e.1 = .text name := by
  rw [List.eq_nil_iff_forall_not_mem]
  constructor
  · intro hnone e he
    refine Classical.byContradiction fun hne => hnone _ (mem_strays.mpr ⟨e, he, ?_, rfl⟩)
    exact fun name hname hkey => hne ⟨name, hname, hkey⟩
  · intro hall issue hissue
    obtain ⟨e, he, hne, -⟩ := mem_strays.mp hissue
    obtain ⟨name, hname, hkey⟩ := hall e he
    exact hne name hname hkey

section

variable {check : α → Checked β} {Of : α → β → Prop} {items : List α}

theorem issues_elements_cons (check : α → Checked β) (n : Nat) (a : α) (rest : List α) :
    (elements check n (a :: rest)).issues =
      ((check a).inside (.index n)).issues ++ (elements check (n + 1) rest).issues := by
  rw [elements]
  cases (check a).inside (.index n) with
  | ok b => cases elements check (n + 1) rest <;> rfl
  | error issues => rfl

theorem elements_eq_ok_iff (h : Exact check Of) {n : Nat} {bs : List β} :
    elements check n items = .ok bs ↔ List.Forall₂ Of items bs := by
  induction items generalizing n bs with
  | nil =>
    rw [elements, Except.ok.injEq, List.forall₂_nil_left_iff, eq_comm]
  | cons a rest ih =>
    rw [elements, List.forall₂_cons_left_iff]
    constructor
    · intro hok
      split at hok
      · rename_i b bs' hb hbs
        obtain rfl := Except.ok.inj hok
        exact ⟨b, bs', h.eq_ok_iff.mp (Checked.inside_eq_ok.mp hb), ih.mp hbs, rfl⟩
      · cases hok
    · rintro ⟨b, bs', hb, hbs, rfl⟩
      rw [Checked.inside_eq_ok.mpr (h.eq_ok_iff.mpr hb), ih.mpr hbs]

theorem elements_ne_error_nil (h : Exact check Of) {n : Nat} :
    elements check n items ≠ .error [] := by
  intro he
  have hnil : (elements check n items).issues = [] := by
    rw [he]
    rfl
  suffices hok : ∃ bs, elements check n items = .ok bs by
    obtain ⟨bs, hbs⟩ := hok
    rw [he] at hbs
    cases hbs
  clear he
  induction items generalizing n with
  | nil => exact ⟨[], rfl⟩
  | cons a rest ih =>
    rw [issues_elements_cons, List.append_eq_nil_iff] at hnil
    obtain ⟨hfirst, hrest⟩ := hnil
    obtain ⟨b, hb⟩ :=
      (Checked.issues_eq_nil_iff (Checked.inside_ne_error_nil h.ne_error_nil)).mp hfirst
    obtain ⟨bs, hbs⟩ := ih hrest
    exact ⟨b :: bs, by rw [elements, hb, hbs]⟩

/-- Each element that stands for nothing is named by its position, and no other. -/
theorem faultsAt_elements (h : Exact check Of) {n : Nat} {place : List Step} :
    FaultsAt 1 (elements check n items).issues place ↔
      ∃ k, ∃ hk : k < items.length, (¬ ∃ b, Of items[k] b) ∧ place = [.index (n + k : Nat)] := by
  induction items generalizing n with
  | nil => simp [elements, Checked.issues]
  | cons a rest ih =>
    rw [issues_elements_cons, faultsAt_append, faultsAt_inside, ih]
    simp only [faultsAt_zero, h.issues_ne_nil_iff]
    constructor
    · rintro (⟨_, rfl, hnone, rfl⟩ | ⟨k, hk, hnone, rfl⟩)
      · exact ⟨0, Nat.zero_lt_succ _, hnone, rfl⟩
      · refine ⟨k + 1, Nat.succ_lt_succ hk, hnone, ?_⟩
        rw [Nat.add_assoc, Nat.add_comm 1 k]
    · rintro ⟨k, hk, hnone, rfl⟩
      cases k with
      | zero => exact Or.inl ⟨[], rfl, hnone, rfl⟩
      | succ k =>
        refine Or.inr ⟨k, Nat.lt_of_succ_lt_succ hk, hnone, ?_⟩
        rw [Nat.add_assoc, Nat.add_comm 1 k]

end

end Checks
end DbImage
