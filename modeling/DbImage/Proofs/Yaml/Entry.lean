import DbImage.Proofs.Yaml.Quoted
import DbImage.Yaml.Reading

/-!
# Texts of one entry

A text of the form `key: value`, where key and value are words of letters, digits and underscores, is
a mapping with one entry.  The scanner takes four steps: the key, the colon, at which the key is found
to be one, the value, and the end, which closes the mapping.  The tokens then build a graph of three
nodes, and the value of the last node is what its form says (`read_entry`).
-/

namespace DbImage
namespace Yaml

/-- Letters and digits of ASCII and the underscore.  None of them is an indicator. -/
def isBare (c : Char) : Bool :=
  c.isAlphanum || c == '_'

structure IsBareWord (w : List Char) : Prop where
  ne_nil : w ≠ []
  bare : w.all isBare = true

theorem ne_of_isBare {c d : Char} (hc : isBare c = true) (hd : isBare d = false) : c ≠ d := by
  rintro rfl
  rw [hc] at hd
  cases hd

theorem isVisible_of_isBare {c : Char} (h : isBare c = true) : Text.isVisible c = true := by
  have hrange : 48 ≤ c.toNat ∧ c.toNat ≤ 122 := by
    have halnum : c.isAlphanum = ((c.isUpper || c.isLower) || c.isDigit) := rfl
    have hupper : c.isUpper = decide ('A' ≤ c ∧ c ≤ 'Z') := rfl
    have hlower : c.isLower = (decide ('a' ≤ c) && decide (c ≤ 'z')) := rfl
    have hdigit : c.isDigit = (decide ('0' ≤ c) && decide (c ≤ '9')) := rfl
    rw [isBare, halnum, hupper, hlower, hdigit] at h
    simp only [Bool.or_eq_true, Bool.and_eq_true, decide_eq_true_eq, beq_iff_eq] at h
    rcases h with (((⟨hlow, hhigh⟩ | ⟨hlow, hhigh⟩) | ⟨hlow, hhigh⟩) | rfl)
    · have h₁ : 65 ≤ c.toNat := hlow
      have h₂ : c.toNat ≤ 90 := hhigh
      omega
    · have h₁ : 97 ≤ c.toNat := hlow
      have h₂ : c.toNat ≤ 122 := hhigh
      omega
    · have h₁ : 48 ≤ c.toNat := hlow
      have h₂ : c.toNat ≤ 57 := hhigh
      omega
    · decide
  simp only [Text.isVisible, Bool.and_eq_true, decide_eq_true_eq]
  omega

theorem isBreak_of_isBare {c : Char} (h : isBare c = true) : isBreak c = false :=
  isBreak_of_isVisible (isVisible_of_isBare h)

theorem endsWord_of_isBare {c : Char} (h : isBare c = true) : endsWord (some c) = false := by
  have h₁ := ne_of_isBare (d := ' ') h rfl
  have h₂ := ne_of_isBare (d := '\t') h rfl
  simp [endsWord, h₁, h₂, isBreak_of_isBare h]

theorem IsBareWord.exists_cons {w : List Char} (hw : IsBareWord w) :
    ∃ c rest, w = c :: rest ∧ isBare c = true ∧ rest.all isBare = true := by
  cases w with
  | nil => exact absurd rfl hw.ne_nil
  | cons c rest =>
    have h := hw.bare
    rw [List.all_cons, Bool.and_eq_true] at h
    exact ⟨c, rest, rfl, h⟩

/-! ## Moving over a word -/

namespace Cursor

theorem takeBreak_eq_self {k : Cursor} (h : ∀ c, k.peek = some c → isBreak c = false) :
    k.takeBreak = ([], k) := by
  cases hk : k.rest with
  | nil => rw [takeBreak, hk]
  | cons c rest => exact takeBreak_of_isBreak_eq_false hk (h c (peek_of_cons hk))

theorem run_eq_nil {k : Cursor} {p : Char → Bool} (h : ∀ c, k.peek = some c → p c = false) :
    k.run p = [] := by
  cases hk : k.rest with
  | nil => rw [run, hk, List.takeWhile_nil]
  | cons c rest =>
    rw [run, hk, List.takeWhile_cons, h c (peek_of_cons hk), if_neg Bool.false_ne_true]

theorem atMarker_eq_false {k : Cursor} {c : Char} {rest : List Char} (hk : k.rest = c :: rest)
    (hdash : c ≠ '-') (hdot : c ≠ '.') : k.atMarker = false := by
  unfold atMarker
  split
  · rename_i heq
    obtain rfl := (List.cons.inj (hk.symm.trans heq)).1
    simp [hdash, hdot]
  · rfl

/-- A word lies on one line and each character of it takes up one column. -/
theorem skip_bare {w : List Char} (hw : w.all isBare = true) (rest : List Char) (i l c : Nat) :
    skip w.length ⟨w ++ rest, i, l, c⟩ = ⟨rest, i + w.length, l, c + w.length⟩ := by
  induction w generalizing i c with
  | nil => rfl
  | cons d w ih =>
    rw [List.all_cons, Bool.and_eq_true] at hw
    have hmark : d ≠ '\ufeff' := ne_of_isBare hw.1 (by decide)
    have hnext : next ⟨d :: w ++ rest, i, l, c⟩ = ⟨w ++ rest, i + 1, l, c + 1⟩ := by
      simp only [next, List.cons_append, isBreak_of_isBare hw.1, Bool.false_and, if_neg hmark,
        Bool.false_eq_true, if_false]
    rw [List.length_cons, skip, hnext, ih hw.2, Nat.add_assoc, Nat.add_assoc,
      Nat.add_comm 1 w.length]

end Cursor

/-- A word in front of what no plain scalar starts with is all of a plain scalar. -/
theorem plainRun_bare {w rest : List Char} (hw : w.all isBare = true)
    (hrest : plainRun false rest = []) : plainRun false (w ++ rest) = w := by
  induction w with
  | nil => exact hrest
  | cons c w ih =>
    rw [List.all_cons, Bool.and_eq_true] at hw
    have hcolon : c ≠ ':' := ne_of_isBare hw.1 rfl
    have hstop : stopsPlain false c (w ++ rest).head? = false := by
      simp [stopsPlain, endsWord_of_isBare hw.1, hcolon]
    rw [List.cons_append, plainRun, hstop, ih hw.2]
    rfl

/-- A word ends where the text does, or at a colon and a space. -/
def EndsBare (rest : List Char) : Prop :=
  rest = [] ∨ ∃ back, rest = ':' :: ' ' :: back

theorem scanPlain_bare {w rest : List Char} (hw : IsBareWord w) (hrest : EndsBare rest)
    (indent : Nat) {k : Cursor} (hk : k.rest = w ++ rest) :
    scanPlain false indent k = ((w, false), k.skip w.length) := by
  obtain ⟨c, w', hcons, hc, -⟩ := hw.exists_cons
  have hpeek : k.peek ≠ some '#' := by
    rw [Cursor.peek, hk, hcons]
    exact fun e => ne_of_isBare (d := '#') hc rfl (Option.some.inj e)
  have hrun : plainRun false k.rest = w := by
    rw [hk]
    refine plainRun_bare hw.bare ?_
    rcases hrest with rfl | ⟨back, rfl⟩ <;> rfl
  have hempty : w.isEmpty = false := List.isEmpty_eq_false_iff.mpr hw.ne_nil
  have hafter : (k.skip w.length).rest = rest := Cursor.rest_skip_of_append hk
  have hnext : ∀ d, (k.skip w.length).peek = some d → d = ':' := by
    intro d hd
    rw [Cursor.peek, hafter] at hd
    rcases hrest with rfl | ⟨back, rfl⟩
    · cases hd
    · exact (Option.some.inj hd).symm
  have hspaces : plainSpaces (k.skip w.length) = (([], false), k.skip w.length) := by
    have hrun : (k.skip w.length).run (· == ' ') = [] :=
      Cursor.run_eq_nil fun d hd => by rw [hnext d hd]; rfl
    have hbreak : (k.skip w.length).takeBreak = ([], k.skip w.length) :=
      Cursor.takeBreak_eq_self fun d hd => by rw [hnext d hd]; rfl
    simp only [plainSpaces, hrun, List.length_nil, Cursor.skip, hbreak]
  rw [scanPlain, plainFrom, if_neg hpeek, hrun]
  simp only [hempty, hspaces, List.isEmpty_nil, true_or, if_true, Bool.false_eq_true, if_false,
    List.nil_append]

/-! ## Tokens -/

namespace Scanner

/-- Where a token begins, or the text ends, nothing is skipped. -/
def AtToken (k : Cursor) : Prop :=
  ∀ c, k.peek = some c → c ≠ ' ' ∧ c ≠ '#' ∧ c ≠ '\ufeff' ∧ isBreak c = false

theorem atToken_of_isBare {c : Char} {k : Cursor} (hc : isBare c = true) (hk : k.peek = some c) :
    AtToken k := by
  intro d hd
  obtain rfl : c = d := Option.some.inj (hk.symm.trans hd)
  exact ⟨ne_of_isBare hc rfl, ne_of_isBare hc rfl, ne_of_isBare hc (by decide), isBreak_of_isBare hc⟩

/-- Nothing but spaces is skipped in front of a token. -/
theorem skipToToken_of_skipSpaces {s : Scanner} {k : Cursor} (hmark : s.cursor.peek ≠ some '\ufeff')
    (hspaces : s.cursor.skipSpaces = k) (h : AtToken k) : s.skipToToken = s.moveTo k := by
  have hfirst : ¬ (s.cursor.index = 0 ∧ s.cursor.peek = some '\ufeff') := fun e => hmark e.2
  have hcomment : k.peek ≠ some '#' := fun e => (h _ e).2.1 rfl
  have hbreak := Cursor.takeBreak_eq_self fun c hc => (h c hc).2.2.2
  rw [skipToToken]
  simp only [if_neg hfirst]
  rw [skipBlank]
  simp only [moveTo, hspaces, if_neg hcomment, hbreak]

theorem skipToToken_eq_self {s : Scanner} (h : AtToken s.cursor) : s.skipToToken = s := by
  have hspaces : s.cursor.skipSpaces = s.cursor := by
    have hrun : s.cursor.run (· == ' ') = [] :=
      Cursor.run_eq_nil fun c hc => beq_eq_false_iff_ne.mpr (h c hc).1
    rw [Cursor.skipSpaces, Cursor.skipWhile, hrun]
    rfl
  exact skipToToken_of_skipSpaces (fun e => (h _ e).2.2.1 rfl) hspaces h

/-- One space in front of a token is skipped. -/
theorem skipToToken_space {s : Scanner} {rest : List Char} (hk : s.cursor.rest = ' ' :: rest)
    (h : AtToken s.cursor.next) : s.skipToToken = s.moveTo s.cursor.next := by
  have hspaces : s.cursor.skipSpaces = s.cursor.next := by
    have hrun : s.cursor.next.run (· == ' ') = [] :=
      Cursor.run_eq_nil fun c hc => beq_eq_false_iff_ne.mpr (h c hc).1
    rw [Cursor.run, Cursor.rest_next_of_cons hk] at hrun
    rw [Cursor.skipSpaces, Cursor.skipWhile, Cursor.run, hk, List.takeWhile_cons, hrun]
    rfl
  refine skipToToken_of_skipSpaces ?_ hspaces h
  rw [Cursor.peek_of_cons hk]
  decide

/-- A word is a plain scalar, since no character of it is an indicator. -/
theorem scanToken_bare {s : Scanner} {c : Char} {rest : List Char} (hc : isBare c = true)
    (hk : s.cursor.rest = c :: rest) : s.scanToken = s.scanPlainScalar := by
  have hne : ∀ d, isBare d = false → ¬ c = d := fun d hd => ne_of_isBare hc hd
  have hmarker : s.cursor.atMarker = false :=
    Cursor.atMarker_eq_false hk (hne '-' rfl) (hne '.' rfl)
  have hplain : startsPlain s.inFlow c (s.cursor.peekAt 1) = true := by
    have hnone : ("-?:,[]\x7b\x7d#&*!|>'\"%@`".toList.all fun d => !isBare d) = true := by decide
    have hlist : ¬ "-?:,[]\x7b\x7d#&*!|>'\"%@`".toList.contains c = true := by
      intro hmem
      have hbare := List.all_eq_true.mp hnone c (List.contains_iff_mem.mp hmem)
      rw [hc] at hbare
      cases hbare
    rw [startsPlain, if_neg hlist, endsWord_of_isBare hc]
    rfl
  rw [scanToken]
  simp only [Cursor.peek_of_cons hk]
  simp only [hne '%' rfl, hne '[' rfl, hne '{' rfl, hne ']' rfl, hne '}' rfl, hne ',' rfl,
    hne '-' rfl, hne '?' rfl, hne ':' rfl, hne '*' rfl, hne '&' rfl, hne '!' rfl, hne '|' rfl,
    hne '>' rfl, hne '\'' rfl, hne '"' rfl, hmarker, hplain, false_and, and_false, or_self, if_false,
    if_true, Bool.false_eq_true]

/-! ### The four steps -/

section Steps

variable {w v : List Char}

/-- The place of the first word. -/
def possibleKey : PossibleKey := ⟨0, false, 0, 0, 0⟩

/-- The scanner after the first word, at the colon. -/
def afterWord (w v : List Char) : Scanner :=
  ⟨⟨':' :: ' ' :: v, w.length, 0, w.length⟩, [some possibleKey], [], false, [.scalar (w.map .char) true]⟩

def afterColon (w v : List Char) : Scanner :=
  ⟨⟨' ' :: v, w.length + 1, 0, w.length + 1⟩, [none], [0], false,
    [.blockMappingStart, .key, .scalar (w.map .char) true, .value]⟩

def afterValue (w v : List Char) : Scanner :=
  ⟨⟨[], w.length + 2 + v.length, 0, w.length + 2 + v.length⟩, [none], [0], false,
    [.blockMappingStart, .key, .scalar (w.map .char) true, .value, .scalar (v.map .char) true]⟩

/-- The tokens of an entry. -/
def entryTokens (w v : List Char) : List Token :=
  [.blockMappingStart, .key, .scalar (w.map .char) true, .value, .scalar (v.map .char) true,
    .blockEnd, .streamEnd]

/-- Where no key is given up and no collection closed, a step is the next token. -/
theorem step_eq_scanToken {s t : Scanner} (h : s.skipToToken = t)
    (hkeys : dropStale t.cursor t.keys = .ok t.keys) (hclose : t.closeBlocksHere = t) :
    s.step = t.scanToken := by
  rw [step, h]
  simp only [hkeys, bind, Except.bind]
  exact congrArg scanToken hclose

theorem dropStale_fresh {k : Cursor} {key : PossibleKey} (h : isStale k key = false) :
    dropStale k [some key] = .ok [some key] := by
  simp only [dropStale, Option.any_some, h, Bool.false_eq_true, if_false]
  rfl

theorem step_start (hw : IsBareWord w) :
    (start (w ++ ':' :: ' ' :: v)).step = .ok (afterWord w v) := by
  obtain ⟨c, rest, hcons, hc, -⟩ := hw.exists_cons
  have hk : (start (w ++ ':' :: ' ' :: v)).cursor.rest = c :: (rest ++ ':' :: ' ' :: v) := by
    rw [hcons]
    rfl
  have htoken : AtToken (start (w ++ ':' :: ' ' :: v)).cursor :=
    atToken_of_isBare hc (Cursor.peek_of_cons hk)
  have hsave : (start (w ++ ':' :: ' ' :: v)).saveKey =
      .ok { start (w ++ ':' :: ' ' :: v) with keys := [some possibleKey] } := rfl
  have hplain : scanPlain false 0 (start (w ++ ':' :: ' ' :: v)).cursor =
      ((w, false), (afterWord w v).cursor) := by
    rw [scanPlain_bare hw (.inr ⟨v, rfl⟩) 0 rfl]
    refine Prod.ext rfl ((Cursor.skip_bare hw.bare (':' :: ' ' :: v) 0 0 0).trans ?_)
    simp only [Nat.zero_add]
    rfl
  rw [step_eq_scanToken (skipToToken_eq_self htoken) rfl rfl, scanToken_bare hc hk,
    scanPlainScalar, hsave]
  exact congrArg (fun r : (List Char × Bool) × Cursor => Except.ok (Scanner.mk r.2
    [some possibleKey] [] r.1.2 [.scalar (r.1.1.map .char) true])) hplain

theorem step_afterWord (hw : w.length ≤ keyLimit) :
    (afterWord w v).step = .ok (afterColon w v) := by
  have htoken : AtToken (afterWord w v).cursor := by
    intro c hc
    obtain rfl : ':' = c := Option.some.inj hc
    decide
  have hfresh : isStale (afterWord w v).cursor possibleKey = false := by
    simp only [isStale, afterWord, possibleKey, bne_self_eq_false, Bool.false_or, Nat.sub_zero]
    exact decide_eq_false (Nat.not_lt.mpr hw)
  have hvalue : (afterWord w v).scanToken = (afterWord w v).scanValue := by
    have hmarker : (afterWord w v).cursor.atMarker = false :=
      Cursor.atMarker_eq_false rfl (by decide) (by decide)
    rw [scanToken]
    simp only [hmarker, Bool.false_eq_true, and_false, if_false]
    rfl
  rw [step_eq_scanToken (skipToToken_eq_self htoken) (dropStale_fresh hfresh) rfl, hvalue]
  rfl

theorem step_afterColon (hv : IsBareWord v) : (afterColon w v).step = .ok (afterValue w v) := by
  obtain ⟨c, rest, hcons, hc, -⟩ := hv.exists_cons
  have hk : (afterColon w v).cursor.next.rest = c :: rest := hcons
  have hspace := skipToToken_space (s := afterColon w v) rfl
    (atToken_of_isBare hc (Cursor.peek_of_cons hk))
  have hplain : scanPlain false 1 (afterColon w v).cursor.next =
      ((v, false), (afterValue w v).cursor) := by
    rw [scanPlain_bare hv (.inl rfl) 1 (List.append_nil v).symm]
    have hskip := Cursor.skip_bare hv.bare [] (w.length + 2) 0 (w.length + 2)
    rw [List.append_nil] at hskip
    exact Prod.ext rfl hskip
  have hsave : ((afterColon w v).moveTo (afterColon w v).cursor.next).saveKey =
      .ok ((afterColon w v).moveTo (afterColon w v).cursor.next) := rfl
  rw [step_eq_scanToken hspace rfl rfl, scanToken_bare hc hk, scanPlainScalar, hsave]
  exact congrArg (fun r : (List Char × Bool) × Cursor => Except.ok (Scanner.mk r.2 [none] [0] r.1.2
    [.blockMappingStart, .key, .scalar (w.map .char) true, .value,
      .scalar (r.1.1.map .char) true])) hplain

theorem step_afterValue (w v : List Char) :
    ∃ s, (afterValue w v).step = .ok s ∧ s.tokens = entryTokens w v := by
  have htoken : AtToken (afterValue w v).cursor := fun c hc => nomatch hc
  rw [step_eq_scanToken (skipToToken_eq_self htoken) rfl rfl]
  exact ⟨_, rfl, rfl⟩

end Steps

end Scanner

namespace TokenStream

theorem scanFrom_of_step {s t : Scanner} (h : s.step = .ok t)
    (hlast : t.tokens.getLast? ≠ some .streamEnd) (fuel : Nat) :
    scanFrom (fuel + 1) s = scanFrom fuel t := by
  simp only [scanFrom, h, if_neg hlast]

theorem scanFrom_of_last_step {s t : Scanner} (h : s.step = .ok t)
    (hlast : t.tokens.getLast? = some .streamEnd) (fuel : Nat) :
    scanFrom (fuel + 1) s = ⟨t.tokens, none⟩ := by
  simp only [scanFrom, h, if_pos hlast]

theorem ofText_entry {w v : List Char} (hw : IsBareWord w) (hlen : w.length ≤ keyLimit)
    (hv : IsBareWord v) : ofText (w ++ ':' :: ' ' :: v) = ⟨Scanner.entryTokens w v, none⟩ := by
  obtain ⟨fuel, hfuel⟩ : ∃ fuel, (w ++ ':' :: ' ' :: v).length + 2 = fuel + 1 + 1 + 1 + 1 :=
    ⟨w.length + v.length, by simp only [List.length_append, List.length_cons]; omega⟩
  obtain ⟨s, hend, htokens⟩ := Scanner.step_afterValue w v
  rw [ofText, hfuel, scanFrom_of_step (Scanner.step_start hw) nofun,
    scanFrom_of_step (Scanner.step_afterWord hlen) nofun,
    scanFrom_of_step (Scanner.step_afterColon hv) nofun,
    scanFrom_of_last_step hend (by rw [htokens]; rfl), htokens]

end TokenStream

/-! ## The graph -/

/-- The nodes of an entry: the mapping, its key and its value. -/
def entryGraph (w v : List Char) : Graph :=
  [.mapping .map [(1, 2)], .scalar (Form.tagOf w) (w.map .char),
    .scalar (Form.tagOf v) (v.map .char)]

theorem Reading.formTag_map_char (w : List Char) : formTag (w.map .char) = Form.tagOf w := by
  rw [formTag, CodePoint.chars?_map_char]
  rfl

theorem Graph.ofTokens_entry (w v : List Char) :
    Graph.ofTokens ⟨Scanner.entryTokens w v, none⟩ = .ok (entryGraph w v, some 0) := by
  rw [entryGraph, ← Reading.formTag_map_char, ← Reading.formTag_map_char]
  rfl

theorem flatten_entryGraph {w v : List Char} (hw : Form.tagOf w = .str) :
    (entryGraph w v).flatten 0 = .ok (entryGraph w v) := by
  rw [entryGraph, hw]
  rfl

namespace Construction

theorem visit_of_scalar {c : Construction} {n : NodeId} {s : Scalar LooseText}
    (hnew : c.scalar? n = none) (hopened : c.opened.contains n = false) (htag : (c.graph.find n).tag.isCollection = false)
    (hs : c.graph.scalar n = .ok s) :
    c.visit n = .ok { c with scalars := (n, s) :: c.scalars } := by
  simp only [visit, hnew, hopened, htag, hs, Option.isSome_none, Bool.or_self, Bool.false_eq_true,
    if_false]
  rfl

theorem scalar_of_find {g : Graph} {n : NodeId} {tag : Tag} {text : List Char}
    (hn : g.find n = .scalar tag (text.map .char)) (htag : tag = .int ∨ tag = .str) :
    g.scalar n = Value.ofChars tag text := by
  rw [← Value.ofText_map_char]
  rcases htag with rfl | rfl <;> simp only [Graph.scalar, hn, Graph.textWithin] <;> rfl

/-- A key that is text and a value that is a whole number or text make a mapping of one entry. -/
theorem build_entryGraph {w v : List Char} {s : Scalar LooseText} (hw : Form.tagOf w = .str)
    (hv : Form.tagOf v = .int ∨ Form.tagOf v = .str) (hs : Value.ofChars (Form.tagOf v) v = .ok s)
    (depth : Nat) :
    build (entryGraph w v) 0 (depth + 1) =
      .ok (.map [(.text (String.ofList w : String), .scalar s)]) := by
  have hkey : (entryGraph w v).scalar 1 = .ok (.text (String.ofList w : String)) := by
    rw [scalar_of_find rfl (.inr hw), hw]
    rfl
  have hkeyTag : ((entryGraph w v).find 1).tag.isCollection = false := by
    show (Form.tagOf w).isCollection = false
    rw [hw]
    rfl
  have hvalueTag : ((entryGraph w v).find 2).tag.isCollection = false := by
    show (Form.tagOf v).isCollection = false
    rcases hv with hv | hv <;> rw [hv] <;> rfl
  have hfill : fill ⟨entryGraph w v, [], [0], []⟩ 0 =
      .ok ⟨entryGraph w v, [(2, s), (1, .text (String.ofList w))], [0], []⟩ := by
    show fill.fillMapping ⟨entryGraph w v, [], [0], []⟩ 0 = _
    rw [fill.fillMapping, flatten_entryGraph hw]
    show visitEntries ⟨entryGraph w v, [], [0], []⟩ [(1, 2)] = _
    rw [visitEntries, visit_of_scalar rfl rfl hkeyTag hkey]
    show (visit ⟨entryGraph w v, [(1, .text (String.ofList w))], [0], []⟩ 2 >>= _) = _
    rw [visit_of_scalar rfl rfl hvalueTag ((scalar_of_find rfl hv).trans hs)]
    rfl
  have hroot : (ofGraph (entryGraph w v)).visit 0 = .ok ⟨entryGraph w v, [], [0], [0]⟩ := rfl
  have hfillAll : fillAll ((entryGraph w v).length + 1) ⟨entryGraph w v, [], [0], [0]⟩ =
      .ok ⟨entryGraph w v, [(2, s), (1, .text (String.ofList w))], [0], []⟩ := by
    show fillAll 4 _ = _
    simp only [fillAll, hfill]
  have hdatum : datum ⟨entryGraph w v, [(2, s), (1, .text (String.ofList w))], [0], []⟩
      (depth + 1) 0 = .map [(.text (String.ofList w : String), .scalar s)] := by
    have hvalue : datum ⟨entryGraph w v, [(2, s), (1, .text (String.ofList w))], [0], []⟩ depth 2 =
        .scalar s := by
      cases depth <;> rfl
    exact congrArg (fun d => (.map [(.text (String.ofList w : String), d)] : Datum LooseText)) hvalue
  rw [build, hroot]
  simp only [bind, Except.bind, hfillAll, hdatum]
  rfl

end Construction

/-! ## The text -/

theorem isAllowed_of_isVisible {c : Char} (h : Text.isVisible c = true) : isAllowed c = true := by
  simp only [Text.isVisible, Bool.and_eq_true, decide_eq_true_eq] at h
  have hrange : 0x20 ≤ c.toNat ∧ c.toNat ≤ 0x7e := by omega
  simp [isAllowed, hrange]

/-- The value of a text of one entry. -/
theorem read_entry {w v : List Char} {s : Scalar LooseText} (hw : IsBareWord w)
    (hlen : w.length ≤ keyLimit) (hv : IsBareWord v) (hkey : Form.tagOf w = .str)
    (hvalue : Form.tagOf v = .int ∨ Form.tagOf v = .str)
    (hs : Value.ofChars (Form.tagOf v) v = .ok s) (depth : Nat) :
    read (depth + 1) (w ++ ':' :: ' ' :: v) =
      .ok (.map [(.text (String.ofList w : String), .scalar s)]) := by
  have hallowed : (w ++ ':' :: ' ' :: v).all isAllowed = true := by
    have hbare : ∀ u : List Char, u.all isBare = true → u.all isAllowed = true := fun u hu =>
      List.all_eq_true.mpr fun c hc =>
        isAllowed_of_isVisible (isVisible_of_isBare (List.all_eq_true.mp hu c hc))
    rw [List.all_append, List.all_cons, List.all_cons, hbare w hw.bare, hbare v hv.bare]
    rfl
  rw [read, hallowed, TokenStream.ofText_entry hw hlen hv, Graph.ofTokens_entry]
  exact Construction.build_entryGraph hkey hvalue hs depth

end Yaml
end DbImage
