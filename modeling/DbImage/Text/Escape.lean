/-!
Escapes by number: the code of a character in hexadecimal, in a fixed width. Every quoted form of
the library builds its escapes from these.
-/

namespace DbImage
namespace Text

/-- The hexadecimal digits of `n`, lower case, the last `width` of them. -/
def hexDigits : Nat → Nat → List Char
  | 0, _ => []
  | width + 1, n => hexDigits width (n / 16) ++ [Nat.digitChar (n % 16)]

@[simp]
theorem length_hexDigits (width n : Nat) : (hexDigits width n).length = width := by
  induction width generalizing n with
  | zero => rfl
  | succ width ih => simp [hexDigits, ih]

/-- A character beyond the first plane as the two halves of its UTF-16 form; any other as itself. -/
def utf16Units (n : Nat) : List Nat :=
  if n < 0x10000 then [n]
  else [0xd800 + (n - 0x10000) / 0x400, 0xdc00 + (n - 0x10000) % 0x400]

end Text
end DbImage
