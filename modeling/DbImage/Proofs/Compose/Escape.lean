import DbImage.Compose.Render
import DbImage.Interpolation

/-!
# Escaped dollar signs

Each dollar sign of a value is doubled, and reading placeholders takes two dollar signs for one.  So
an escaped value stands for itself whatever the variables are, and since its last dollar sign is
taken up by the one before it, what follows the value is read as if it stood alone.
-/

namespace DbImage
namespace Compose

open Interpolation (Piece expandPieces interpolate pieces piecesFrom token?)

/-- The characters of an escaped value. -/
def escapeChars (s : List Char) : List Char :=
  s.flatMap fun c => if c = '$' then ['$', '$'] else [c]

theorem toList_escape (value : String) : (escape value).toList = escapeChars value.toList := by
  rw [escape, TextLike.substitute_string, String.toList_ofList, escapeChars]

/-- What an escaped character is read as. -/
def escapedPiece (c : Char) : Piece :=
  if c = '$' then .dollar else .char c

theorem token?_of_ne {c : Char} (h : c ≠ '$') (s : List Char) : token? (c :: s) = none := by
  unfold token?
  split
  · rename_i e
    exact absurd (List.cons.inj e).1 h
  · rename_i e
    exact absurd (List.cons.inj e).1 h
  · rfl

/-- In front of any text an escaped value is read character by character. -/
theorem pieces_escapeChars_append (t s : List Char) :
    pieces (escapeChars t ++ s) = t.map escapedPiece ++ pieces s := by
  induction t with
  | nil => rfl
  | cons c t ih =>
    rw [escapeChars, List.flatMap_cons, ← escapeChars, List.append_assoc, List.map_cons,
      List.cons_append, ← ih]
    by_cases h : c = '$'
    · -- the second of the two signs belongs to the piece that the first one starts
      rw [if_pos h, escapedPiece, if_pos h]
      rfl
    · rw [if_neg h, escapedPiece, if_neg h, List.singleton_append, pieces, piecesFrom,
        token?_of_ne h]
      rfl

theorem expandPieces_map_escapedPiece (b : Bindings) (t : List Char) :
    expandPieces b (t.map escapedPiece) = .ok t := by
  induction t with
  | nil => rfl
  | cons c t ih =>
    have hc : (escapedPiece c).expand b = .ok [c] := by
      by_cases h : c = '$'
      · rw [escapedPiece, if_pos h, h]
        rfl
      · rw [escapedPiece, if_neg h]
        rfl
    rw [List.map_cons, expandPieces, hc, ih]
    rfl

/-- Whatever the variables, an escaped value stands for the value. -/
theorem interpolate_escape (value : String) (b : Bindings) :
    interpolate (escape value) b = .ok value := by
  have h := pieces_escapeChars_append value.toList []
  rw [List.append_nil, Interpolation.pieces_nil, List.append_nil] at h
  rw [interpolate, toList_escape, h, expandPieces_map_escapedPiece]
  exact congrArg Except.ok String.ofList_toList

/-- A text without dollar signs is its own escape, so it stands for itself. -/
theorem interpolate_of_not_mem {text : String} (h : '$' ∉ text.toList) (b : Bindings) :
    interpolate text b = .ok text := by
  have hchars : ∀ s : List Char, '$' ∉ s → escapeChars s = s := by
    intro s hs
    induction s with
    | nil => rfl
    | cons c s ih =>
      have hc : c ≠ '$' := fun e => hs (by simp [e])
      rw [escapeChars, List.flatMap_cons, if_neg hc, ← escapeChars,
        ih fun hm => hs (List.mem_cons_of_mem c hm)]
      rfl
  have hescape : escape text = text := by
    rw [← String.toList_inj, toList_escape, hchars text.toList h]
  rw [← hescape, interpolate_escape, hescape]

end Compose
end DbImage
