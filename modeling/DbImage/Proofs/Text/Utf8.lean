import DbImage.Proofs.Text.JsonString

/-!
# Strict UTF-8

UTF-8 by its bits, without an encoder and without a decoder: which marks the bytes of one character
bear, which number their other bits make, and which of these forms count.  A form counts if no fewer
bytes make the same number, the number is no surrogate and at most U+10FFFF.  `fromUTF8?_eq_some_iff_reads`
says that content is read as a text exactly if it consists of such forms, and that the text has the
code points that their bits make.
-/

namespace DbImage
namespace Text
namespace Utf8

/-- A byte that goes on with a character: the bits `10` and six bits of its code point. -/
def GoesOn (b : UInt8) : Prop :=
  0x80 ≤ b.toNat ∧ b.toNat < 0xC0

/-- Bytes with the marks of one character, and the number that the bits beside the marks make. Nothing
is asked of the number. -/
inductive Marked : List UInt8 → Nat → Prop
  | one {a : UInt8} : a.toNat < 0x80 → Marked [a] a.toNat
  | two {a b : UInt8} : 0xC0 ≤ a.toNat → a.toNat < 0xE0 → GoesOn b →
      Marked [a, b] (a.toNat % 0x20 * 0x40 + b.toNat % 0x40)
  | three {a b c : UInt8} : 0xE0 ≤ a.toNat → a.toNat < 0xF0 → GoesOn b → GoesOn c →
      Marked [a, b, c] (a.toNat % 0x10 * 0x1000 + b.toNat % 0x40 * 0x40 + c.toNat % 0x40)
  | four {a b c d : UInt8} : 0xF0 ≤ a.toNat → a.toNat < 0xF8 → GoesOn b → GoesOn c → GoesOn d →
      Marked [a, b, c, d]
        (a.toNat % 0x8 * 0x40000 + b.toNat % 0x40 * 0x1000 + c.toNat % 0x40 * 0x40 + d.toNat % 0x40)

/-- The bytes are the one strict form of the code point. -/
structure Encodes (bytes : List UInt8) (code : Nat) : Prop where
  marked : Marked bytes code
  /-- The form is not overlong. -/
  shortest : ∀ other, Marked other code → bytes.length ≤ other.length
  not_surrogate : ¬ (0xD800 ≤ code ∧ code < 0xE000)
  le_last : code ≤ 0x10FFFF

/-- The bytes are strict forms of these code points, one after the other. -/
inductive Reads : List UInt8 → List Nat → Prop
  | nil : Reads [] []
  | cons {first rest : List UInt8} {code : Nat} {codes : List Nat} :
      Encodes first code → Reads rest codes → Reads (first ++ rest) (code :: codes)

/-- Strictly valid UTF-8. -/
def IsStrict (bytes : List UInt8) : Prop :=
  ∃ codes, Reads bytes codes

/-! ## One character -/

variable {bytes other : List UInt8} {code : Nat}

/-- How many bits there are beside the marks. -/
theorem Marked.room (h : Marked bytes code) :
    (bytes.length = 1 ∧ code < 0x80) ∨ (bytes.length = 2 ∧ code < 0x800) ∨
      (bytes.length = 3 ∧ code < 0x10000) ∨ bytes.length = 4 := by
  cases h <;> simp <;> omega

/-- Forms of one length differ in their numbers: the bits of the number and the marks are all there
is. -/
theorem Marked.eq_of_length_eq (h : Marked bytes code) (h' : Marked other code)
    (hlength : bytes.length = other.length) : bytes = other := by
  generalize hcode : code = n at h'
  cases h with
  | one =>
    cases h' with
    | one => rw [UInt8.toNat_inj.mp hcode]
    | _ => simp at hlength
  | two _ _ hb =>
    cases h' with
    | two _ _ hb' =>
      simp only [List.cons.injEq, and_true, ← UInt8.toNat_inj]
      simp only [GoesOn] at hb hb'
      omega
    | _ => simp at hlength
  | three _ _ hb hc =>
    cases h' with
    | three _ _ hb' hc' =>
      simp only [List.cons.injEq, and_true, ← UInt8.toNat_inj]
      simp only [GoesOn] at hb hb' hc hc'
      omega
    | _ => simp at hlength
  | four _ _ hb hc hd =>
    cases h' with
    | four _ _ hb' hc' hd' =>
      simp only [List.cons.injEq, and_true, ← UInt8.toNat_inj]
      simp only [GoesOn] at hb hb' hc hc' hd hd'
      omega
    | _ => simp at hlength

theorem Marked.of_eq {n : Nat} (h : Marked bytes code) (hcode : code = n) : Marked bytes n :=
  hcode ▸ h

theorem goesOn_ofNat (n : Nat) : GoesOn (UInt8.ofNat (n % 64 + 0x80)) := by
  rw [GoesOn, UInt8.toNat_ofNat']
  omega

/-- The bytes that a character is written with have the marks of one, and make its code point. -/
theorem marked_utf8EncodeChar (c : Char) : Marked (String.utf8EncodeChar c) c.toNat := by
  have hlt := toNat_lt c
  rw [String.utf8EncodeChar, Char.toNat_val]
  generalize c.toNat = n at hlt
  split
  · refine (Marked.one ?_).of_eq ?_ <;> rw [UInt8.toNat_ofNat'] <;> omega
  split
  · refine (Marked.two ?_ ?_ (goesOn_ofNat n)).of_eq ?_ <;> simp only [UInt8.toNat_ofNat'] <;> omega
  split
  · refine (Marked.three ?_ ?_ (goesOn_ofNat (n / 64)) (goesOn_ofNat n)).of_eq ?_ <;>
      simp only [UInt8.toNat_ofNat'] <;> omega
  · refine (Marked.four ?_ ?_ (goesOn_ofNat (n / 4096)) (goesOn_ofNat (n / 64))
      (goesOn_ofNat n)).of_eq ?_ <;> simp only [UInt8.toNat_ofNat'] <;> omega

/-- A shorter form than the one that is written has no room for the character. -/
theorem length_utf8EncodeChar_le {c : Char} (h : Marked other c.toNat) :
    (String.utf8EncodeChar c).length ≤ other.length := by
  rw [String.utf8EncodeChar, Char.toNat_val]
  generalize c.toNat = n at h
  have hroom := h.room
  simp only [apply_ite List.length, List.length_cons, List.length_nil]
  split
  · omega
  split
  · omega
  split <;> omega

/-- A character is written with its one strict form. -/
theorem encodes_iff :
    Encodes bytes code ↔ ∃ c : Char, c.toNat = code ∧ String.utf8EncodeChar c = bytes := by
  constructor
  · intro h
    have hvalid : code.isValidChar := by
      have hsurrogate := h.not_surrogate
      have hlast := h.le_last
      rw [Nat.isValidChar]
      omega
    obtain ⟨c, hc⟩ : ∃ c : Char, c.toNat = code := ⟨Char.ofNatAux code hvalid, rfl⟩
    subst hc
    refine ⟨c, rfl, (marked_utf8EncodeChar c).eq_of_length_eq h.marked (Nat.le_antisymm ?_ ?_)⟩
    · exact length_utf8EncodeChar_le h.marked
    · exact h.shortest _ (marked_utf8EncodeChar c)
  · intro h
    obtain ⟨c, rfl, rfl⟩ := h
    exact ⟨marked_utf8EncodeChar c, fun _ => length_utf8EncodeChar_le, not_surrogate c,
      Nat.lt_succ_iff.mp (toNat_lt c)⟩

/-! ## Texts -/

theorem reads_iff {codes : List Nat} :
    Reads bytes codes ↔
      ∃ cs : List Char, cs.map Char.toNat = codes ∧ cs.flatMap String.utf8EncodeChar = bytes := by
  constructor
  · intro h
    induction h with
    | nil => exact ⟨[], rfl, rfl⟩
    | cons hfirst _ ih =>
      obtain ⟨c, rfl, rfl⟩ := encodes_iff.mp hfirst
      obtain ⟨cs, rfl, rfl⟩ := ih
      exact ⟨c :: cs, rfl, rfl⟩
  · intro h
    obtain ⟨cs, rfl, rfl⟩ := h
    induction cs with
    | nil => exact .nil
    | cons c cs ih => exact .cons (encodes_iff.mpr ⟨c, rfl, rfl⟩) ih

theorem toList_toUTF8 (s : String) :
    s.toUTF8.data.toList = s.toList.flatMap String.utf8EncodeChar := by
  rw [String.toUTF8_eq_toByteArray, ← String.utf8Encode_toList, List.utf8Encode,
    List.toList_data_toByteArray]

theorem fromUTF8?_eq_some_iff {bytes : ByteArray} {s : String} :
    String.fromUTF8? bytes = some s ↔ bytes = s.toUTF8 := by
  unfold String.fromUTF8?
  split
  · rename_i hvalid
    constructor
    · intro h
      rw [← Option.some.inj h]
      rfl
    · rintro rfl
      rfl
  · rename_i hnot
    refine iff_of_false (fun h => nomatch h) fun h => hnot ?_
    rw [h]
    exact s.isValidUTF8

/-- Content is read as a text exactly if it holds the strict forms of the text's code points. -/
theorem fromUTF8?_eq_some_iff_reads {bytes : ByteArray} {s : String} :
    String.fromUTF8? bytes = some s ↔ Reads bytes.data.toList (s.toList.map Char.toNat) := by
  rw [fromUTF8?_eq_some_iff, reads_iff]
  constructor
  · intro h
    exact ⟨s.toList, rfl, by rw [h, toList_toUTF8]⟩
  · intro h
    obtain ⟨cs, hcodes, hbytes⟩ := h
    obtain rfl : cs = s.toList := (List.map_inj_right fun _ _ => Char.toNat_inj.mp).mp hcodes
    rw [← toList_toUTF8] at hbytes
    exact ByteArray.ext (Array.toList_inj.mp hbytes.symm)

/-- There is a text to be read exactly in strictly valid UTF-8. -/
theorem isStrict_iff {bytes : ByteArray} :
    IsStrict bytes.data.toList ↔ (String.fromUTF8? bytes).isSome = true := by
  rw [Option.isSome_iff_exists]
  constructor
  · intro h
    obtain ⟨codes, hreads⟩ := h
    obtain ⟨cs, rfl, -⟩ := reads_iff.mp hreads
    refine ⟨String.ofList cs, fromUTF8?_eq_some_iff_reads.mpr ?_⟩
    rwa [String.toList_ofList]
  · intro h
    obtain ⟨s, hs⟩ := h
    exact ⟨_, fromUTF8?_eq_some_iff_reads.mp hs⟩

instance (bytes : List UInt8) : Decidable (IsStrict bytes) :=
  decidable_of_iff ((String.fromUTF8? ⟨bytes.toArray⟩).isSome = true)
    (@isStrict_iff ⟨bytes.toArray⟩).symm

/-- An overlong slash, a surrogate and a number past the last code point are not strict, and the
characters next to them are. -/
example :
    ¬ IsStrict [0xC0, 0xAF] ∧ ¬ IsStrict [0xE0, 0x9F, 0xBF] ∧ ¬ IsStrict [0xED, 0xA0, 0x80] ∧
      ¬ IsStrict [0xF4, 0x90, 0x80, 0x80] ∧
      IsStrict [0x2F, 0xC2, 0x80, 0xE0, 0xA0, 0x80, 0xED, 0x9F, 0xBF, 0xF4, 0x8F, 0xBF, 0xBF] := by
  decide

end Utf8
end Text
end DbImage
