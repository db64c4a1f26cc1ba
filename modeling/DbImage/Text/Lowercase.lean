import DbImage.Text.Lowercase.Table

/-!
Lower-casing of text in every script. Each character maps on its own, but for the Greek sigma, whose
small form depends on whether it ends a word, and the dotted capital I, which becomes two characters.
-/

namespace DbImage
namespace Text

/-- The small letter of a capital; any other character is its own. -/
def lowerChar (c : Char) : Char :=
  if c.toNat < 0x80 then c.toLower
  else
    match caseRuns.find? fun (first, last, step, _) =>
        decide (first ≤ c.toNat) && decide (c.toNat ≤ last) && (c.toNat - first) % step == 0 with
    | some (_, _, _, distance) => Char.ofNat (c.toNat + distance).toNat
    | none => c

/-- A letter with case stands first in `s`, once the characters that casing looks through are
skipped. -/
def meetsCased (s : List Char) : Bool :=
  (s.dropWhile caseIgnorable.contains).head?.any cased.contains

/-- Lower-cases the text after `before`, which holds what was passed, nearest first. -/
def lowerAfter (before : List Char) : List Char → List Char
  | [] => []
  | c :: rest =>
    let small :=
      if c = 'Σ' then [if meetsCased before && !meetsCased rest then 'ς' else 'σ']
      else if c = 'İ' then ['i', '\u0307']
      else [lowerChar c]
    small ++ lowerAfter (c :: before) rest

def lowercase (s : String) : String :=
  String.ofList (lowerAfter [] s.toList)

end Text
end DbImage
