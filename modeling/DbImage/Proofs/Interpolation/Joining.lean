import DbImage.Proofs.Compose.Escape
import DbImage.Proofs.Interpolation.Reading

/-!
# Templates put together

Two templates that are put together are read as one, and a token may lie where they meet, as in `$` in
front of `{A}`.  That takes a dollar sign that belongs to no token in the first of them.  An escaped
value has none, so it stands for the value wherever it is put, and what follows it is read as if it
stood alone: `interpolate_escape_append`.
-/

namespace DbImage
namespace Interpolation

open Compose (escape escapeChars escapedPiece)

/-- No dollar sign of the template stands for itself, so each belongs to a token. -/
def DollarsTaken (template : List Char) : Prop :=
  .char '$' ∉ pieces template

instance (template : List Char) : Decidable (DollarsTaken template) :=
  inferInstanceAs (Decidable (.char '$' ∉ pieces template))

variable {r s : List Char} {ps : List Piece}

/-- The induction is on the reading of what is in front. Only a character that stands for itself could
begin another token there, and it would have to be a dollar sign. -/
theorem pieces_append_of_reads (h : Reads r ps) (hdollar : .char '$' ∉ ps) (s : List Char) :
    pieces (r ++ s) = ps ++ pieces s := by
  induction h with
  | nil => rfl
  | token hp _ ih =>
    rw [List.mem_cons, not_or] at hdollar
    rw [List.append_assoc, pieces_source_append hp, ih hdollar.2, List.cons_append]
  | @char c rest ps _ _ ih =>
    rw [List.mem_cons, not_or] at hdollar
    have hc : c ≠ '$' := fun e => hdollar.1 (congrArg Piece.char e.symm)
    rw [List.cons_append, pieces_of_no_token (Compose.token?_of_ne hc _), ih hdollar.2,
      List.cons_append]

theorem DollarsTaken.pieces_append (h : DollarsTaken r) (s : List Char) :
    pieces (r ++ s) = pieces r ++ pieces s :=
  pieces_append_of_reads (reads_pieces r) h s

theorem dollarsTaken_escape (value : String) : DollarsTaken (escape value).toList := by
  have hread := Compose.pieces_escapeChars_append value.toList []
  rw [List.append_nil, pieces_nil, List.append_nil] at hread
  rw [DollarsTaken, Compose.toList_escape, hread, List.mem_map]
  rintro ⟨c, -, hc⟩
  unfold escapedPiece at hc
  split at hc
  · cases hc
  · rename_i hne
    exact hne (Piece.char.inj hc)

/-- Where no token can lie across the two, they come to what each comes to. -/
theorem interpolate_append {r : String} (h : DollarsTaken r.toList) (s : String) (b : Bindings) :
    interpolate (r ++ s) b = do return (← interpolate r b) ++ (← interpolate s b) := by
  rw [interpolate, String.toList_append, h.pieces_append, expandPieces_append, interpolate, interpolate]
  cases expandPieces b (pieces r.toList) with
  | error name => rfl
  | ok front =>
    cases expandPieces b (pieces s.toList) with
    | error name => rfl
    | ok back => exact congrArg Except.ok String.ofList_append

/-- Whatever value is escaped, whatever template follows and whatever the variables are: the whole
comes to the value followed by what the template comes to, and lacks a variable exactly if the template
does.  So it is behind any template whose dollar signs all belong to tokens, and alone the escaped value
never fails. -/
theorem interpolate_escape_append (value : String) (b : Bindings) :
    (∀ s, interpolate (escape value ++ s) b = (interpolate s b).map (value ++ ·)) ∧
    (∀ s name, interpolate (escape value ++ s) b = .error name ↔ interpolate s b = .error name) ∧
    interpolate (escape value) b = .ok value ∧
    ∀ r, DollarsTaken r.toList → ∀ s, interpolate (r ++ escape value ++ s) b =
      do return (← interpolate r b) ++ value ++ (← interpolate s b) := by
  have hvalue := Compose.interpolate_escape value b
  have hfront : ∀ s, interpolate (escape value ++ s) b = (interpolate s b).map (value ++ ·) := by
    intro s
    rw [interpolate_append (dollarsTaken_escape value), hvalue]
    cases interpolate s b <;> rfl
  refine ⟨hfront, fun s name => ?_, hvalue, fun r hr s => ?_⟩
  · rw [hfront]
    cases interpolate s b with
    | error n => exact Iff.rfl
    | ok out => exact ⟨fun h => (nomatch h), fun h => (nomatch h)⟩
  · rw [String.append_assoc, interpolate_append hr, hfront]
    cases interpolate r b with
    | error name => rfl
    | ok front =>
      cases interpolate s b with
      | error name => rfl
      | ok back => exact congrArg Except.ok (String.append_assoc ..).symm

/-- A value that ends in dollar signs and holds what looks like a placeholder, between a placeholder
and a text that would make one with a dollar sign in front. -/
theorem interpolate_escape_append_between :
    DollarsTaken "${A}-".toList ∧
      interpolate ("${A}-" ++ escape "${B}$$" ++ "{B}${C}") [("A", "x"), ("B", "y"), ("C", "z")] =
        .ok "x-${B}$${B}z" ∧
      interpolate (escape "${B}$" ++ "{B}${C}") [] = .error "C" := by
  have hfront : DollarsTaken "${A}-".toList := by decide
  refine ⟨hfront, ?_, ?_⟩
  · rw [(interpolate_escape_append "${B}$$" _).2.2.2 "${A}-" hfront]
    rfl
  · rw [(interpolate_escape_append "${B}$" []).2.1]
    rfl

end Interpolation
end DbImage
