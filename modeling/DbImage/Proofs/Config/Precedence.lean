import DbImage.Proofs.Config.Gathering
import DbImage.Proofs.EnvFile.Values
import DbImage.Proofs.Interpolation.Dependence

/-!
# Which value a variable has

A variable of the context keeps its value, an empty one too, and an env file only adds variables that
the context does not have.  A text is read with the look-ups alone, so it comes to the same with the
merged variables as context and no env file: `gather_precedence`.
-/

namespace DbImage

open Files (Entry Host)
open EnvFile (Assigned Assignment assignments fill given? seen?)

namespace Bindings

variable {b context : Bindings}

/-- Where the names of the context are all different, its value counts, and then what is below. -/
theorem get?_overlay_of_nodup (hcontext : context.names.Nodup) (b : Bindings) (name : String) :
    (b.overlay context).get? name = (context.get? name).or (b.get? name) := by
  rw [get?_overlay, last?_of_nodup hcontext]

end Bindings

namespace ImageConfig

/-- A text says the same to variables that answer all look-ups alike. -/
theorem ofText_congr {a b : Bindings} (h : ∀ name, a.get? name = b.get? name) (text : String) :
    ofText text a = ofText text b := by
  rw [ofText, ofText, Interpolation.interpolate_congr h]

end ImageConfig

namespace Variables

/-- The variables where an env file exists. A name has the context's value if it is in the context, and
otherwise the value that the file gives it, if it gives it one; no other name is bound and none twice.
Texts are read as with these variables as context, whatever the order, on any machine and without the
file. What a file gives a name is what the last assignment of the name says, so a name without a value
takes an earlier value back. Only where its bytes are no UTF-8 is there nothing to read. -/
theorem gather_precedence (context? : Option Bindings) {h : Host} {path : String} {e : Entry}
    (he : h.find? path = some e) (hcontext : (context?.getD h.environment).names.Nodup) :
    (∀ ss, statementsOf? e = some ss →
      ∃ b, ((gather context? (some path)).on h).1 = .ok b ∧ b.names.Nodup ∧
        (∀ name, b.get? name = ((context?.getD h.environment).get? name).or
          (given? h.environment (assignments ss) name).join) ∧
        (∀ name, name ∈ b.names ↔ name ∈ (context?.getD h.environment).names ∨
          ∃ value, given? h.environment (assignments ss) name = some (some value)) ∧
        ∀ merged : Bindings, (∀ name, merged.get? name = b.get? name) → ∀ text h',
          ((ImageConfig.parseText context? (some path) text).on h).1 =
            ((ImageConfig.parseText (some merged) none text).on h').1) ∧
    (∀ (before : List Assignment) (a : Assignment) (after : List Assignment),
      ¬ Assigned after (String.ofList a.1) →
      given? h.environment (before ++ a :: after) (String.ofList a.1) =
        some (a.2.map fun v => String.ofList (fill (seen? h.environment before) 0 v))) ∧
    (∀ as name, ¬ Assigned as name → given? h.environment as name = none) ∧
    (statementsOf? e = none → ((gather context? (some path)).on h).1 = .error .notUtf8) := by
  refine ⟨fun ss hss => ?_, fun before a after hafter => ?_,
    fun as name => EnvFile.given?_of_not_assigned, fun hnone => ?_⟩
  · have hgather := fst_on_gather_of_statements context? he hss
    generalize hb : (EnvFile.bindings h.environment ss).overlay (context?.getD h.environment) = b
      at hgather
    have hget : ∀ name, b.get? name = ((context?.getD h.environment).get? name).or
        (given? h.environment (assignments ss) name).join := fun name => by
      rw [← hb, Bindings.get?_overlay_of_nodup hcontext, EnvFile.get?_bindings]
    refine ⟨b, hgather, ?_, hget, fun name => ?_, fun merged hmerged text h' => ?_⟩
    · rw [← hb]
      exact Bindings.nodup_names_overlay (EnvFile.nodup_names_bindings _ ss) _
    · rw [← Bindings.isSome_get?_iff, hget, Option.isSome_or, Bool.or_eq_true,
        Bindings.isSome_get?_iff, Option.isSome_iff_exists]
      simp only [Option.join_eq_some_iff]
    -- the merged variables may stand in another order, and be read on a machine without the file
    · rw [ImageConfig.fst_on_parseText, ImageConfig.fst_on_parseText, hgather,
        fst_on_gather_none]
      exact ImageConfig.ofText_congr (fun name => (hmerged name).symm) text
  · rw [← List.singleton_append, ← List.append_assoc,
      EnvFile.given?_append_of_not_assigned _ hafter, EnvFile.given?_append_singleton, if_pos rfl]
  · rw [fst_on_gather_some context? (Host.ne_empty_of_find? he), outcomeOfFile, he]
    simp only [hnone]
    rfl

/-- The environment as context, with an empty variable and one that the file has too. In the file a
value refers to the file's own variable, and the last that is said of one name is the name alone. -/
theorem gather_precedence_of_environment :
    let text := "A=a\nB=b\nC=${B}\nD=1\nD\n"
    let h : Host :=
      { files := ⟨[([".env"], .file text.toUTF8)]⟩
        workingDirectory := []
        environment := [("A", ""), ("B", "shell")]
        log := [] }
    h.find? ".env" = some (.file text.toUTF8) ∧ h.environment.names.Nodup ∧
      ∃ b, ((gather none (some ".env")).on h).1 = .ok b ∧ b.get? "A" = some "" ∧
        b.get? "B" = some "shell" ∧ b.get? "C" = some "b" ∧ b.get? "D" = none := by
  intro text h
  have he : h.find? ".env" = some (.file text.toUTF8) := by decide +kernel
  have hcontext : h.environment.names.Nodup := by decide
  have hss : statementsOf? (.file text.toUTF8) = some
      [.assignment ['A'] (some ['a']), .assignment ['B'] (some ['b']),
        .assignment ['C'] (some ['$', '{', 'B', '}']), .assignment ['D'] (some ['1']),
        .assignment ['D'] none] := by
    decide +kernel
  obtain ⟨b, hb, -, hget, -, -⟩ := (gather_precedence none he hcontext).1 _ hss
  refine ⟨he, hcontext, b, hb, ?_⟩
  simp only [hget]
  decide +kernel

end Variables
end DbImage
