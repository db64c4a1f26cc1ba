import DbImage.Proofs.Compose.Layout
import DbImage.Proofs.Yaml.Quoted

/-!
# The scalars of a compose file

A compose file is YAML, so what its reader gets for a variable or for a token of the command is what
YAML reads between the quotes, where half of a surrogate pair is no character.  `Denotes` says that a
piece of the file is a scalar with a given text, wherever the piece stands, and `NoScalar` that it is
no scalar.  The quotes are those of JSON, and `render_denotes_iff` says for which values that is
enough.
-/

namespace DbImage
namespace Compose

open Yaml (FirstPlane scanCharacters)

/-- Wherever the piece stands in a text, it is a scalar in double quotes with the text `value`. -/
def Denotes (piece value : String) : Prop :=
  ∀ (k : Yaml.Cursor) (after : List Char), k.rest = piece.toList ++ after →
    ∃ k', scanCharacters true k = .ok (value.toList, k') ∧ k'.rest = after

/-- Wherever the piece stands, reading a scalar in double quotes there fails. -/
def NoScalar (piece : String) : Prop :=
  ∀ (k : Yaml.Cursor) (after : List Char), k.rest = piece.toList ++ after →
    scanCharacters true k = .error .malformed

theorem NoScalar.not_denotes {piece : String} (h : NoScalar piece) (value : String) :
    ¬ Denotes piece value := by
  intro hd
  have hk : (Yaml.Cursor.start piece.toList).rest = piece.toList ++ [] :=
    (List.append_nil _).symm
  obtain ⟨k', hok, -⟩ := hd _ [] hk
  rw [h _ [] hk] at hok
  cases hok

/-- Doubling dollar signs keeps every character within its plane. -/
theorem firstPlane_escape (value : String) :
    (∀ c ∈ (escape value).toList, FirstPlane c) ↔ ∀ c ∈ value.toList, FirstPlane c := by
  rw [toList_escape, escapeChars]
  constructor
  · intro h c hc
    refine h c (List.mem_flatMap.mpr ⟨c, hc, ?_⟩)
    split <;> simp_all
  · intro h c hc
    obtain ⟨d, hd, hcd⟩ := List.mem_flatMap.mp hc
    split at hcd
    · simp only [List.mem_cons, List.not_mem_nil, or_false, or_self] at hcd
      rw [hcd]
      decide
    · rw [List.mem_singleton.mp hcd]
      exact h d hd

theorem denotes_quote {value : String} (h : ∀ c ∈ value.toList, FirstPlane c) :
    Denotes (quote value) (escape value) := fun _ _ hk =>
  Yaml.scanCharacters_embedded ((firstPlane_escape value).mpr h) hk

theorem noScalar_quote {value : String} (h : ¬ ∀ c ∈ value.toList, FirstPlane c) :
    NoScalar (quote value) := by
  intro k after hk
  refine Yaml.scanCharacters_embedded_wide ?_ hk
  rw [← firstPlane_escape] at h
  simpa using h

/-- What stands in a compose file for the values of an image.  A value denotes its escaped text if one
UTF-16 unit is enough for each of its characters, and otherwise is no scalar. -/
theorem render_denotes_iff (c : Contract) (service : String) (mounts : List Mount) :
    (∃ env, ByLowerName c.env env ∧
      render c service mounts = (describeAll c.ready).map fun conditions => unlines
        (Layout.header c.imageRef conditions ++ Layout.service service c.imageRef
          ++ Layout.environment env ++ Layout.command c.command ++ Layout.volumes mounts)) ∧
    ∀ value ∈ c.env.map Prod.snd ++ c.command,
      (Denotes (quote value) (escape value) ↔ ∀ ch ∈ value.toList, FirstPlane ch) ∧
      ((∃ ch ∈ value.toList, ¬ FirstPlane ch) → NoScalar (quote value)) := by
  refine ⟨⟨sortedByName c.env, byLowerName_sortedByName c.env, ?_⟩, fun value _ => ⟨⟨?_, ?_⟩, ?_⟩⟩
  · exact render_eq_map_unlines c service mounts
  · intro hd
    exact Decidable.byContradiction fun h => (noScalar_quote h).not_denotes _ hd
  · exact denotes_quote
  · rintro ⟨ch, hch, hwide⟩
    exact noScalar_quote fun h => hwide (h ch hch)

/-- A password with a dollar sign, a line end and letters beyond ASCII, and one with a character that
has two UTF-16 units. -/
theorem render_denotes_iff_of_passwords :
    let c : Contract := ⟨"db", "1", [], [("A", "é$\n&"), ("B", "😀")], [], ["-c", "fsync=off"]⟩
    ("é$\n&" ∈ c.env.map Prod.snd ++ c.command ∧ ∀ ch ∈ "é$\n&".toList, FirstPlane ch) ∧
      Denotes (quote "é$\n&") "é$$\n&" ∧
      ("😀" ∈ c.env.map Prod.snd ++ c.command ∧ ∃ ch ∈ "😀".toList, ¬ FirstPlane ch) ∧
      NoScalar (quote "😀") := by
  intro c
  have hplanes : ("é$\n&".toList.all fun ch => decide (FirstPlane ch)) = true := by decide
  have hnarrow : "é$\n&" ∈ c.env.map Prod.snd ++ c.command ∧
      ∀ ch ∈ "é$\n&".toList, FirstPlane ch :=
    ⟨by decide, fun ch hch => of_decide_eq_true (List.all_eq_true.mp hplanes ch hch)⟩
  have hwide : "😀" ∈ c.env.map Prod.snd ++ c.command ∧ ∃ ch ∈ "😀".toList, ¬ FirstPlane ch :=
    ⟨by decide, '😀', by decide, by decide⟩
  have h := (render_denotes_iff c "db" []).2
  exact ⟨hnarrow, (h _ hnarrow.1).1.mpr hnarrow.2, hwide, (h _ hwide.1).2 hwide.2⟩

/-- A variable that no reader of the compose file gets back. -/
theorem emoji_denotes_nothing :
    let c : Contract := ⟨"db", "1", [], [("A", "😀")], [], []⟩
    ∃ text front, render c "db" [] = .ok text ∧
      text = front ++ "      A: " ++ quote "😀" ++ "\n" ∧ quote "😀" = "\"\\ud83d\\ude00\"" ∧
      ¬ Denotes (quote "😀") (escape "😀") := by
  refine ⟨_, "# Generated by tcimages from db:1\n# Ready when:\nservices:\n  db:\n" ++
    "    image: \"db:1\"\n    environment:\n", rfl, ?_, ?_, ?_⟩
  · decide +kernel
  · decide +kernel
  · have hwide : ¬ ∀ ch ∈ "😀".toList, FirstPlane ch := fun h =>
      absurd (h '😀' (by decide)) (by decide)
    exact (noScalar_quote hwide).not_denotes _

end Compose
end DbImage
