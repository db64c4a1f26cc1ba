import DbImage.Text.Base64

/-!
# Reading base 64 back

A digit that is read adds six bits to those that are held, and eight bits are given out as a byte.  So
the four digits of three bytes give the three bytes and hold nothing, and reading what was written
gives the bytes back.  That what is written is base 64 at all is `spells_encode`: the digits have the
bits of the bytes.
-/

namespace DbImage
namespace Text
namespace Base64

/-- A digit is read as its value. -/
theorem decodeFrom_digit (g : Group) {n : Nat} (h : n < 64) (rest : List Char) :
    decodeFrom g (digit n :: rest) = (decodeFrom (g.push n).1 rest).map ((g.push n).2 ++ ·) := by
  rw [decodeFrom, if_neg (digit_ne_pad n h), digitValue?_digit n h]

/-! The digits of 24 bits put together again: the first two give the first byte, the second and the
third one the second byte, and the last two the third byte. -/

theorem first_byte {a b c : Nat} (ha : a < 256) (hb : b < 256) (hc : c < 256) :
    (a * 0x10000 + b * 0x100 + c) / 0x40000 % 64 * 4 +
      (a * 0x10000 + b * 0x100 + c) / 0x1000 % 64 / 16 = a := by
  omega

theorem second_byte {a b c : Nat} (hb : b < 256) (hc : c < 256) :
    (a * 0x10000 + b * 0x100 + c) / 0x1000 % 64 % 16 * 16 +
      (a * 0x10000 + b * 0x100 + c) / 0x40 % 64 / 4 = b := by
  omega

theorem third_byte {a b c : Nat} (hc : c < 256) :
    (a * 0x10000 + b * 0x100 + c) / 0x40 % 64 % 4 * 64 + (a * 0x10000 + b * 0x100 + c) % 64 = c := by
  omega

/-- The four digits of three bytes give these bytes. -/
theorem decodeFrom_digits_four (a b c : UInt8) (rest : List Char) :
    decodeFrom .start (digits 4 (a.toNat * 0x10000 + b.toNat * 0x100 + c.toNat) ++ rest) =
      (decodeFrom .start rest).map ([a, b, c] ++ ·) := by
  have hfirst := first_byte a.toNat_lt b.toNat_lt c.toNat_lt
  have hsecond := second_byte (a := a.toNat) b.toNat_lt c.toNat_lt
  have hthird := third_byte (a := a.toNat) (b := b.toNat) c.toNat_lt
  generalize a.toNat * 0x10000 + b.toNat * 0x100 + c.toNat = n at hfirst hsecond hthird
  have hdigits : digits 4 n ++ rest =
      digit (n / 0x40000 % 64) :: digit (n / 0x1000 % 64) :: digit (n / 0x40 % 64) ::
        digit (n % 64) :: rest := rfl
  rw [hdigits, decodeFrom_digit _ (Nat.mod_lt _ (by decide)),
    decodeFrom_digit _ (Nat.mod_lt _ (by decide)), decodeFrom_digit _ (Nat.mod_lt _ (by decide)),
    decodeFrom_digit _ (Nat.mod_lt _ (by decide))]
  simp only [Group.start, Group.push, hfirst, hsecond, hthird, UInt8.ofNat_toNat, Option.map_map]
  cases decodeFrom ⟨0, 0, 0⟩ rest <;> rfl

/-- Two digits and the filling end the text with one byte. -/
theorem decodeFrom_digits_two (a : UInt8) :
    decodeFrom .start (digits 2 (a.toNat * 0x10000) ++ ['=', '=']) = some [a] := by
  have hfirst := first_byte (b := 0) (c := 0) a.toNat_lt (by decide) (by decide)
  rw [Nat.zero_mul, Nat.add_zero] at hfirst
  generalize a.toNat * 0x10000 = n at hfirst
  have hdigits : digits 2 n ++ ['=', '='] =
      [digit (n / 0x40000 % 64), digit (n / 0x1000 % 64), '=', '='] := rfl
  rw [hdigits, decodeFrom_digit _ (Nat.mod_lt _ (by decide)),
    decodeFrom_digit _ (Nat.mod_lt _ (by decide))]
  simp only [Group.start, Group.push, hfirst, UInt8.ofNat_toNat]
  rfl

/-- Three digits and the filling end the text with two bytes. -/
theorem decodeFrom_digits_three (a b : UInt8) :
    decodeFrom .start (digits 3 (a.toNat * 0x10000 + b.toNat * 0x100) ++ ['=']) =
      some [a, b] := by
  have hfirst := first_byte (c := 0) a.toNat_lt b.toNat_lt (by decide)
  have hsecond := second_byte (a := a.toNat) (c := 0) b.toNat_lt (by decide)
  rw [Nat.add_zero] at hfirst hsecond
  generalize a.toNat * 0x10000 + b.toNat * 0x100 = n at hfirst hsecond
  have hdigits : digits 3 n ++ ['='] =
      [digit (n / 0x40000 % 64), digit (n / 0x1000 % 64), digit (n / 0x40 % 64), '='] := rfl
  rw [hdigits, decodeFrom_digit _ (Nat.mod_lt _ (by decide)),
    decodeFrom_digit _ (Nat.mod_lt _ (by decide)), decodeFrom_digit _ (Nat.mod_lt _ (by decide))]
  simp only [Group.start, Group.push, hfirst, hsecond, UInt8.ofNat_toNat]
  rfl

/-- Reading gives back what was written, whatever its length leaves of a last group. -/
theorem decode?_encode (bytes : List UInt8) : decode? (encode bytes) = some bytes := by
  rw [decode?]
  induction bytes using encode.induct with
  | case1 => rfl
  | case2 a => exact decodeFrom_digits_two a
  | case3 a b => exact decodeFrom_digits_three a b
  | case4 a b c rest ih =>
    rw [encode, decodeFrom_digits_four, ih]
    rfl

/-! ## The form by its bits -/

/-- The digits in the order of their values. -/
def alphabet : List Char :=
  "ABCDEFGHIJKLMNOPQRSTUVWXYZabcdefghijklmnopqrstuvwxyz0123456789+/".toList

/-- The lowest bits of a number, so many of them, the highest of these first. -/
def bits : Nat → Nat → List Bool
  | 0, _ => []
  | width + 1, n => bits width (n / 2) ++ [n % 2 == 1]

/-- The text is the base 64 form of the bytes: digits, filled up with less than three `=` to whole
groups of four, whose values have the bits of the bytes in their order, and two bits that are zero for
each `=`. -/
def Spells (text : List Char) (bytes : List UInt8) : Prop :=
  ∃ (values : List Nat) (filling : Nat),
    text.map some = values.map (alphabet[·]?) ++ List.replicate filling (some '=') ∧
      filling < 3 ∧ 4 ∣ text.length ∧
      values.flatMap (bits 6) =
        bytes.flatMap (fun b => bits 8 b.toNat) ++ List.replicate (2 * filling) false

theorem alphabet_digit : ∀ n < 64, alphabet[n]? = some (digit n) := by
  decide

theorem bits_add (front back n : Nat) :
    bits (front + back) n = bits front (n / 2 ^ back) ++ bits back n := by
  induction back generalizing n with
  | zero => simp [bits]
  | succ back ih =>
    rw [← Nat.add_assoc, bits, ih, bits, Nat.div_div_eq_div_mul, ← Nat.pow_succ', List.append_assoc]

theorem bits_mod (width n : Nat) : bits width (n % 2 ^ width) = bits width n := by
  induction width generalizing n with
  | zero => rfl
  | succ width ih =>
    have hhalf : n % 2 ^ (width + 1) / 2 = n / 2 % 2 ^ width := by
      rw [Nat.pow_succ', Nat.mod_mul_right_div_self]
    have hlast : n % 2 ^ (width + 1) % 2 = n % 2 :=
      Nat.mod_mod_of_dvd n (Nat.pow_succ' ▸ Nat.dvd_mul_right 2 _)
    rw [bits, hhalf, hlast, ih, bits]

theorem bits_zero (width : Nat) : bits width 0 = List.replicate width false := by
  induction width with
  | zero => rfl
  | succ width ih => rw [bits, Nat.zero_div, ih, List.replicate_succ']; rfl

/-- The values of the four digits of 24 bits. -/
def values (n : Nat) : List Nat :=
  [n / 0x40000 % 64, n / 0x1000 % 64, n / 0x40 % 64, n % 64]

theorem digits_eq (count n : Nat) : digits count n = ((values n).take count).map digit := rfl

theorem map_some_digits (count n : Nat) :
    (digits count n).map some = ((values n).take count).map (alphabet[·]?) := by
  rw [digits_eq, List.map_map]
  apply List.map_congr_left
  intro v hv
  have hv64 : v < 64 := by
    have := List.mem_of_mem_take hv
    simp only [values, List.mem_cons, List.not_mem_nil, or_false] at this
    omega
  exact (alphabet_digit v hv64).symm

theorem length_bits (width n : Nat) : (bits width n).length = width := by
  induction width generalizing n with
  | zero => rfl
  | succ width ih => rw [bits, List.length_append, ih, List.length_singleton]

/-- So many numbers of one width have the first bits of all of them. -/
theorem flatMap_bits_take (width count : Nat) (ns : List Nat) :
    (ns.take count).flatMap (bits width) = (ns.flatMap (bits width)).take (width * count) := by
  induction count generalizing ns with
  | zero => simp
  | succ count ih =>
    cases ns with
    | nil => simp
    | cons n ns =>
      have hwidth : width * (count + 1) = (bits width n).length + width * count := by
        rw [length_bits, Nat.mul_succ, Nat.add_comm]
      rw [List.take_succ_cons, List.flatMap_cons, List.flatMap_cons, ih, hwidth,
        List.take_length_add_append]

/-- The values of the digits have the bits of the three bytes. -/
theorem flatMap_bits_values {a b c : Nat} (hb : b < 256) (hc : c < 256) :
    (values (a * 0x10000 + b * 0x100 + c)).flatMap (bits 6) = bits 8 a ++ bits 8 b ++ bits 8 c := by
  generalize hn : a * 0x10000 + b * 0x100 + c = n
  have hdigits : (values n).flatMap (bits 6) = bits 24 n := by
    simp only [values, List.flatMap_cons, List.flatMap_nil, List.append_nil]
    rw [bits_mod 6, bits_mod 6, bits_mod 6, bits_mod 6, bits_add 6 18, bits_add 6 12, bits_add 6 6]
  have hfirst : n / 2 ^ 16 = a := by omega
  have hsecond : n / 2 ^ 8 % 2 ^ 8 = b := by omega
  have hthird : n % 2 ^ 8 = c := by omega
  rw [hdigits, bits_add 8 16, bits_add 8 8, hfirst, ← bits_mod 8 (n / 2 ^ 8), hsecond,
    ← bits_mod 8 n, hthird, List.append_assoc]

/-- The digits of a last group have the bits of its bytes and as many zeros as they have room for. -/
theorem flatMap_bits_take_values {n count zeros room : Nat} {front : List Bool}
    (h : (values n).flatMap (bits 6) = front ++ List.replicate zeros false)
    (hroom : 6 * count = front.length + room) (hle : room ≤ zeros) :
    ((values n).take count).flatMap (bits 6) = front ++ List.replicate room false := by
  rw [flatMap_bits_take, h, hroom, List.take_length_add_append, List.take_replicate,
    Nat.min_eq_left hle]

/-- What is written for bytes is their base 64 form. -/
theorem spells_encode (bytes : List UInt8) : Spells (encode bytes) bytes := by
  induction bytes using encode.induct with
  | case1 => exact ⟨[], 0, rfl, by decide, ⟨0, rfl⟩, rfl⟩
  | case2 a =>
    have hbits := flatMap_bits_values (a := a.toNat) (b := 0) (c := 0) (by decide) (by decide)
    rw [Nat.zero_mul, Nat.add_zero, List.append_assoc, bits_zero,
      List.replicate_append_replicate] at hbits
    refine ⟨(values (a.toNat * 0x10000)).take 2, 2, ?_, by decide, ⟨1, rfl⟩, ?_⟩
    · rw [encode, List.map_append, map_some_digits]
      rfl
    · rw [List.flatMap_singleton]
      exact flatMap_bits_take_values hbits (by rw [length_bits]) (by decide)
  | case3 a b =>
    have hbits := flatMap_bits_values (a := a.toNat) (c := 0) b.toNat_lt (by decide)
    rw [Nat.add_zero, bits_zero] at hbits
    refine ⟨(values (a.toNat * 0x10000 + b.toNat * 0x100)).take 3, 1, ?_, by decide, ⟨1, rfl⟩, ?_⟩
    · rw [encode, List.map_append, map_some_digits]
      rfl
    · rw [List.flatMap_cons, List.flatMap_singleton]
      exact flatMap_bits_take_values hbits (by simp only [List.length_append, length_bits])
        (by decide)
  | case4 a b c rest ih =>
    obtain ⟨vs, filling, htext, hfilling, hgroups, hbits⟩ := ih
    refine ⟨values (a.toNat * 0x10000 + b.toNat * 0x100 + c.toNat) ++ vs, filling, ?_, hfilling, ?_, ?_⟩
    · rw [encode, List.map_append, map_some_digits, htext, List.map_append, List.append_assoc]
      rfl
    · rw [encode, List.length_append]
      exact Nat.dvd_add ⟨1, rfl⟩ hgroups
    · rw [List.flatMap_append, flatMap_bits_values b.toNat_lt c.toNat_lt, hbits]
      simp only [List.flatMap_cons, List.append_assoc]

end Base64
end Text
end DbImage
