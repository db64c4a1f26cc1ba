/-!
Base 64. Three bytes are four digits of six bits; a last group of one or two bytes is filled up with
`=`. Reading skips every character that is no digit, as line ends inside the text are, and stops at
the filling that completes a group.
-/

namespace DbImage
namespace Text
namespace Base64

/-- The digit of a value below 64. -/
def digit (n : Nat) : Char :=
  if n < 26 then Char.ofNat ('A'.toNat + n)
  else if n < 52 then Char.ofNat ('a'.toNat + (n - 26))
  else if n < 62 then Char.ofNat ('0'.toNat + (n - 52))
  else if n = 62 then '+'
  else '/'

def digitValue? (c : Char) : Option Nat :=
  if 'A' ≤ c ∧ c ≤ 'Z' then some (c.toNat - 'A'.toNat)
  else if 'a' ≤ c ∧ c ≤ 'z' then some (c.toNat - 'a'.toNat + 26)
  else if '0' ≤ c ∧ c ≤ '9' then some (c.toNat - '0'.toNat + 52)
  else if c = '+' then some 62
  else if c = '/' then some 63
  else none

theorem digitValue?_digit : ∀ n < 64, digitValue? (digit n) = some n := by
  decide

theorem digit_ne_pad : ∀ n < 64, digit n ≠ '=' := by
  decide

/-- The first `count` of the four digits of 24 bits. -/
def digits (count n : Nat) : List Char :=
  ([n / 0x40000 % 64, n / 0x1000 % 64, n / 0x40 % 64, n % 64].take count).map digit

def encode : List UInt8 → List Char
  | [] => []
  | [a] => digits 2 (a.toNat * 0x10000) ++ ['=', '=']
  | [a, b] => digits 3 (a.toNat * 0x10000 + b.toNat * 0x100) ++ ['=']
  | a :: b :: c :: rest =>
    digits 4 (a.toNat * 0x10000 + b.toNat * 0x100 + c.toNat) ++ encode rest

/-- What is known in the middle of a group: the number of digits read, the bits of them not yet
given out, and the filling seen since the last digit. -/
structure Group where
  count : Nat
  held : Nat
  filling : Nat
  deriving DecidableEq, Repr

namespace Group

def start : Group := ⟨0, 0, 0⟩

/-- Takes one more digit, and gives out a byte if eight bits are there. -/
def push (g : Group) (value : Nat) : Group × List UInt8 :=
  match g.count with
  | 0 => (⟨1, value, 0⟩, [])
  | 1 => (⟨2, value % 16, 0⟩, [UInt8.ofNat (g.held * 4 + value / 16)])
  | 2 => (⟨3, value % 4, 0⟩, [UInt8.ofNat (g.held * 16 + value / 4)])
  | _ => (start, [UInt8.ofNat (g.held * 64 + value)])

end Group

/-- Reads on from the middle of a group. A group that the text leaves unfinished is a mistake. -/
def decodeFrom (g : Group) : List Char → Option (List UInt8)
  | [] => if g.count = 0 then some [] else none
  | c :: rest =>
    if c = '=' then
      if 2 ≤ g.count ∧ 4 ≤ g.count + (g.filling + 1) then some []
      else
        decodeFrom (if 2 ≤ g.count then { g with filling := g.filling + 1 } else g) rest
    else
      match digitValue? c with
      | none => decodeFrom g rest
      | some value => (decodeFrom (g.push value).1 rest).map ((g.push value).2 ++ ·)

def decode? (s : List Char) : Option (List UInt8) :=
  decodeFrom .start s

def encodeBytes (bytes : ByteArray) : String :=
  String.ofList (encode bytes.data.toList)

end Base64
end Text
end DbImage
