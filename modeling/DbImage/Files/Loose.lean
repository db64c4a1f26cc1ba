import DbImage.Files.Path
import DbImage.Text.Loose

/-!
Paths in texts that may hold halves of surrogate pairs. They divide into steps as other paths do.
-/

namespace DbImage
namespace Files

/-- The pieces between the slashes that name something. -/
def looseSteps (path : LooseText) : List LooseText :=
  ((path.points.splitOn (.char '/')).filter (!·.isEmpty)).map LooseText.mk

def Root.ofLoose (path : LooseText) : Root :=
  match path.points with
  | .char '/' :: .char '/' :: .char '/' :: _ => .single
  | .char '/' :: .char '/' :: _ => .double
  | .char '/' :: _ => .single
  | _ => .relative

namespace Reference

def ofLoose (path : LooseText) : Reference LooseText :=
  ⟨Root.ofLoose path, (looseSteps path).filter (· ≠ ".")⟩

/-- The text of a path by its code points. -/
theorem text_loose (r : Reference LooseText) :
    r.text = if r.root = .relative ∧ r.steps = [] then ↑"."
      else ⟨r.root.text.toList.map .char ++ [CodePoint.char '/'].intercalate (r.steps.map (·.points))⟩ :=
  rfl

end Reference

end Files
end DbImage
