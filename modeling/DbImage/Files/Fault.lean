import DbImage.Text.Quoted

/-!
How a file operation fails. The system refuses it for a reason and names the path as it was given;
a path that holds U+0000 never gets as far as the system.
-/

namespace DbImage
namespace Files

inductive Reason where
  | noEntry
  | alreadyThere
  | notDirectory
  | isDirectory
  | nameTooLong
  deriving DecidableEq, Repr

namespace Reason

def number : Reason → Nat
  | noEntry => 2
  | alreadyThere => 17
  | notDirectory => 20
  | isDirectory => 21
  | nameTooLong => 36

def text : Reason → String
  | noEntry => "No such file or directory"
  | alreadyThere => "File exists"
  | notDirectory => "Not a directory"
  | isDirectory => "Is a directory"
  | nameTooLong => "File name too long"

end Reason

/-- The system's answer to an operation it does not carry out. -/
structure Refusal where
  reason : Reason
  path : String
  deriving DecidableEq, Repr

namespace Refusal

def message (r : Refusal) : String :=
  "[Errno " ++ toString r.reason.number ++ "] " ++ r.reason.text ++ ": " ++ Text.quoted r.path

end Refusal

inductive Fault where
  /-- The path holds U+0000. -/
  | nulInPath
  | refused (r : Refusal)
  deriving DecidableEq, Repr

end Files
end DbImage
