import DbImage.Proofs.Files.Steps
import DbImage.Proofs.Image.BuilderChain

/-!
# Numbered scripts

The builders number the scripts in the order in which they are added, so each has a target of its own,
and the file name tells its number.
-/

namespace DbImage

open Files (IsName baseName)

namespace Postgres

/-- The name of the `n`-th script. -/
def scriptName (n : Nat) : String :=
  "init_" ++ toString n ++ ".sql"

theorem isDigit_of_mem_toString {n : Nat} {c : Char} (h : c ∈ (toString n).toList) :
    c.isDigit = true := by
  rw [show toString n = n.repr from rfl, Nat.toList_repr] at h
  exact Nat.isDigit_of_mem_toDigits (by decide) (by decide) h

theorem toString_inj {m n : Nat} (h : toString m = toString n) : m = n := by
  have hdigits : Nat.toDigits 10 m = Nat.toDigits 10 n := by
    rw [← Nat.toList_repr, ← Nat.toList_repr]
    exact congrArg String.toList h
  rw [← Nat.ofDigitChars_ten_toDigits (n := m), hdigits, Nat.ofDigitChars_ten_toDigits]

theorem slash_not_mem_scriptName (n : Nat) : '/' ∉ (scriptName n).toList := by
  rw [scriptName, String.toList_append, String.toList_append, List.mem_append, List.mem_append]
  intro h
  rcases h with (h | h) | h
  · revert h
    decide
  · exact absurd (isDigit_of_mem_toString h) (by decide)
  · revert h
    decide

theorem head?_scriptName (n : Nat) : (scriptName n).toList.head? = some 'i' := by
  rw [scriptName, String.toList_append, String.toList_append]
  rfl

theorem isName_scriptName (n : Nat) : IsName (scriptName n) := by
  have hi := head?_scriptName n
  refine ⟨?_, slash_not_mem_scriptName n, ?_, ?_⟩
  all_goals
    intro e
    rw [e] at hi
    revert hi
    decide

theorem scriptName_inj {m n : Nat} (h : scriptName m = scriptName n) : m = n := by
  refine toString_inj (String.toList_inj.mp ?_)
  have hlist := congrArg String.toList h
  simp only [scriptName, String.toList_append, List.append_assoc, List.append_cancel_left_eq,
    List.append_cancel_right_eq] at hlist
  exact hlist

theorem scriptTarget_eq (n : Nat) : scriptTarget n = initDirectory ++ "/" ++ scriptName n := by
  have hinit : "/init_" = "/" ++ "init_" := rfl
  rw [scriptTarget, scriptName, hinit]
  simp only [String.append_assoc]

theorem baseName_scriptTarget (n : Nat) : baseName (scriptTarget n) = scriptName n := by
  rw [scriptTarget_eq, Files.baseName_append_slash _ (slash_not_mem_scriptName n)]

end Postgres

namespace Image

/-- The files of an image that starts without any are the scripts of the calls, numbered in call
order. -/
theorem copies_of_calls {τ : Type} [DecidableEq τ] [TextLike τ] {k : ImageKind}
    {env : List (String × τ)} {fsync : Bool} {cs : List (BuilderCall τ)} {i : Image τ}
    (h : (k.image ⟨env, [], fsync⟩).calls cs = .ok i) :
    i.contract.copies =
      (Outline.ofCalls cs).sources.mapIdx fun n s => ⟨Postgres.scriptTarget n, s⟩ := by
  obtain ⟨q, hq, rfl⟩ := calls_image_eq_ok.mp h
  have hsql : q.initSql = _ := (Postgres.normalForm_run hq).initSql
  have hcopies : (k.image q).contract.copies = q.initSql := by cases k <;> rfl
  rw [hcopies, hsql]
  simp

end Image
end DbImage
