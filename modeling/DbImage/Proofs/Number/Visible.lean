import DbImage.Number.Shortest
import DbImage.Proofs.Text.JsonString

/-!
# Numbers are written in visible ASCII

Whatever digits a format chooses, it lays them out with a sign, a point and an exponent.  So the text
of a number has no line end, and it stays on the line that it is put on.
-/

namespace DbImage
namespace Number

open Text (isVisible)

theorem isVisible_of_isDigit {c : Char} (h : c.isDigit = true) : isVisible c = true := by
  simp only [Char.isDigit, Bool.and_eq_true, decide_eq_true_eq] at h
  have hlow : 48 ≤ c.toNat := h.1
  have hhigh : c.toNat ≤ 57 := h.2
  simp only [isVisible, Bool.and_eq_true, decide_eq_true_eq]
  omega

theorem isVisible_repr (n : Nat) : (Nat.repr n).toList.all isVisible = true := by
  rw [Nat.toList_repr]
  exact List.all_eq_true.mpr fun c hc =>
    isVisible_of_isDigit (Nat.isDigit_of_mem_toDigits (by decide) (by decide) hc)

theorem isVisible_intText (n : Int) : (toString n).toList.all isVisible = true := by
  cases n with
  | ofNat n => exact isVisible_repr n
  | negSucc n =>
    have htext : toString (Int.negSucc n) = "-" ++ Nat.repr (n + 1) := rfl
    rw [htext, String.toList_append, List.all_append, isVisible_repr]
    rfl

theorem isVisible_replicate {c : Char} (h : isVisible c = true) (n : Nat) :
    (List.replicate n c).all isVisible = true := by
  rw [List.all_replicate, h, ite_self]

theorem isVisible_of_sublist {s t : List Char} (h : s.Sublist t) (ht : t.all isVisible = true) :
    s.all isVisible = true :=
  List.all_eq_true.mpr fun c hc => List.all_eq_true.mp ht c (h.subset hc)

namespace Layout

theorem isVisible_exponentText (e : Int) : (exponentText e).all isVisible = true := by
  have hdigits := isVisible_repr e.natAbs
  have hsign : isVisible (if e < 0 then '-' else '+') = true := by split <;> decide
  have he : isVisible 'e' = true := by decide
  have hzero : isVisible '0' = true := by decide
  have hpadded : (if (Nat.repr e.natAbs).toList.length < 2 then '0' :: (Nat.repr e.natAbs).toList
      else (Nat.repr e.natAbs).toList).all isVisible = true := by
    split
    · rw [List.all_cons, hzero, hdigits, Bool.and_self]
    · exact hdigits
  rw [exponentText, List.all_cons, List.all_cons, he, hsign, hpadded, Bool.and_self, Bool.and_self]

theorem isVisible_positional (l : Layout) (d : Decimal) : (l.positional d).all isVisible = true := by
  have hdigits : d.text.all isVisible = true := isVisible_repr d.digits
  have hpoint : isVisible '.' = true := by decide
  have hzero : isVisible '0' = true := by decide
  unfold positional
  dsimp only
  split
  · have htail : (if l.keepsPoint then ['.', '0'] else []).all isVisible = true := by
      split <;> decide
    simp only [List.all_append, hdigits, isVisible_replicate hzero, htail, Bool.and_self]
  · split
    · simp only [List.all_append, List.all_cons, hpoint,
        isVisible_of_sublist (List.take_sublist _ _) hdigits,
        isVisible_of_sublist (List.drop_sublist _ _) hdigits, Bool.and_self]
    · simp only [List.cons_append, List.all_append, List.all_cons, hpoint, hzero, hdigits,
        isVisible_replicate hzero, Bool.and_self]

theorem isVisible_scientific (d : Decimal) : (scientific d).all isVisible = true := by
  have hdigits : d.text.all isVisible = true := isVisible_repr d.digits
  have hpoint : isVisible '.' = true := by decide
  unfold scientific
  split
  · rfl
  · rename_i c hc
    rw [hc, List.all_cons] at hdigits
    rw [List.all_cons, isVisible_exponentText, (Bool.and_eq_true_iff.mp hdigits).1]
    rfl
  · rename_i c rest _ hc
    rw [hc, List.all_cons, Bool.and_eq_true] at hdigits
    simp only [List.cons_append, List.all_append, List.all_cons, hdigits.1, hdigits.2, hpoint,
      isVisible_exponentText, Bool.and_self]

theorem isVisible_write (l : Layout) (d : Decimal) : (l.write d).all isVisible = true := by
  unfold write
  split
  · exact isVisible_scientific d
  · exact isVisible_positional l d

end Layout

theorem Double.isVisible_toCompactText (x : Double) :
    x.toCompactText.toList.all isVisible = true := by
  cases x with
  | finite negative m e =>
    have hsign : (if negative then ['-'] else []).all isVisible = true := by split <;> decide
    rw [toCompactText, textWith, String.toList_ofList, List.all_append, hsign]
    exact Layout.isVisible_write _ _
  | infinite negative => cases negative <;> decide
  | nan => decide

end Number
end DbImage
