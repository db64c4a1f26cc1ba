import DbImage.Instances
import DbImage.Text.Lowercase
import DbImage.Text.Quoted

/-!
Texts that may hold half of a surrogate pair. The escapes of a quoted scalar name code points by
number, and one that names a half stands for it by itself, even beside its other half. Such a text is
carried along and written with escapes like any other; it is only when its own bytes are asked for that
it has none. `TextLike` is what code needs to know of a text to work for both sorts.
-/

namespace DbImage

/-- A code point: a character, or half of a surrogate pair, by its distance from the first. -/
inductive CodePoint where
  | char (c : Char)
  | surrogate (n : Fin 0x800)
  deriving DecidableEq, Repr

namespace CodePoint

/-- The code point of this number, none past the last. -/
def ofNat? (n : Nat) : Option CodePoint :=
  if h : n.isValidChar then some (.char (Char.ofNatAux n h))
  else if n < 0x110000 then some (.surrogate (.ofNat 0x800 (n - 0xd800)))
  else none

def toNat : CodePoint → Nat
  | char c => c.toNat
  | surrogate n => 0xd800 + n

/-- The characters, if there is nothing else among them. -/
def chars? : List CodePoint → Option (List Char)
  | [] => some []
  | .char c :: rest => (chars? rest).map (c :: ·)
  | .surrogate _ :: _ => none

/-- Lower-cases runs of characters each by itself: half of a pair has no case and ends a run. The
characters of the current run are given last first. -/
def lowerRuns (run : List Char) : List CodePoint → List CodePoint
  | [] => (Text.lowerAfter [] run.reverse).map char
  | .char c :: rest => lowerRuns (c :: run) rest
  | .surrogate n :: rest =>
    (Text.lowerAfter [] run.reverse).map char ++ .surrogate n :: lowerRuns [] rest

@[simp]
theorem chars?_map_char (s : List Char) : chars? (s.map char) = some s := by
  induction s with
  | nil => rfl
  | cons c rest ih => simp [chars?, ih]

theorem chars?_eq_some_iff {ps : List CodePoint} {s : List Char} :
    chars? ps = some s ↔ ps = s.map char := by
  constructor
  · intro h
    induction ps generalizing s with
    | nil => simp_all [chars?]
    | cons p rest ih =>
      cases p with
      | surrogate n => cases h
      | char c =>
        obtain ⟨s', hs', rfl⟩ := Option.map_eq_some_iff.mp h
        rw [ih hs', List.map_cons]
  · rintro rfl
    exact chars?_map_char s

end CodePoint

structure LooseText where
  points : List CodePoint
  deriving DecidableEq, Repr

namespace LooseText

def ofString (s : String) : LooseText := ⟨s.toList.map .char⟩

def toString? (t : LooseText) : Option String := (CodePoint.chars? t.points).map String.ofList

def lowercase (t : LooseText) : LooseText := ⟨CodePoint.lowerRuns [] t.points⟩

instance : Coe String LooseText := ⟨ofString⟩

theorem toString?_eq_some_iff {t : LooseText} {s : String} :
    t.toString? = some s ↔ t = ofString s := by
  obtain ⟨ps⟩ := t
  rw [toString?, Option.map_eq_some_iff, ofString, LooseText.mk.injEq]
  constructor
  · rintro ⟨cs, hcs, rfl⟩
    rw [String.toList_ofList]
    exact CodePoint.chars?_eq_some_iff.mp hcs
  · rintro rfl
    exact ⟨s.toList, CodePoint.chars?_map_char _, String.ofList_toList⟩

@[simp]
theorem toString?_ofString (s : String) : (ofString s).toString? = some s :=
  toString?_eq_some_iff.mpr rfl

@[simp]
theorem ofString_inj {s t : String} : ofString s = ofString t ↔ s = t := by
  rw [← toString?_eq_some_iff, toString?_ofString, Option.some_inj]

end LooseText

/-- What is known of a text, whichever sort it is: its code points, whether they are characters alone,
and how texts are put together and rewritten. -/
class TextLike (τ : Type) where
  points : τ → List CodePoint
  ofString : String → τ
  toString? : τ → Option String
  toString?_eq_some_iff : ∀ {t : τ} {s : String}, toString? t = some s ↔ t = ofString s
  append : τ → τ → τ
  intercalate : τ → List τ → τ
  /-- Puts other characters in the place of each. -/
  substitute : (Char → List Char) → τ → τ

namespace TextLike

instance : TextLike String where
  points s := s.toList.map .char
  ofString s := s
  toString? := some
  toString?_eq_some_iff := Option.some_inj
  append s t := s ++ t
  intercalate := String.intercalate
  substitute f s := String.ofList (s.toList.flatMap f)

instance : TextLike LooseText where
  points := LooseText.points
  ofString := LooseText.ofString
  toString? := LooseText.toString?
  toString?_eq_some_iff := LooseText.toString?_eq_some_iff
  append s t := ⟨s.points ++ t.points⟩
  intercalate s ts := ⟨s.points.intercalate (ts.map LooseText.points)⟩
  substitute f t := ⟨t.points.flatMap fun
    | .char c => (f c).map .char
    | p => [p]⟩

variable {τ : Type} [TextLike τ]

/-- The text with an escape for each half of a pair, as an error stream shows it. -/
def shown (t : τ) : String :=
  match toString? t with
  | some s => s
  | none => String.ofList ((points t).flatMap fun
    | .char c => [c]
    | p => Text.numericEscape p.toNat)

/-- The UTF-8 form. A text with half of a pair has none. -/
def utf8? (t : τ) : Option ByteArray := (toString? t).map String.toUTF8

theorem points_string (s : String) : points s = s.toList.map .char := rfl

theorem substitute_string (f : Char → List Char) (s : String) :
    substitute f s = String.ofList (s.toList.flatMap f) := rfl

@[simp]
theorem utf8?_string (s : String) : utf8? s = some s.toUTF8 := rfl

end TextLike
end DbImage
