import DbImage.Image.Basic

/-!
Recipes: how an image is asked for from nothing. A database image starts from its kind's default; any
other image is given by its contract, part by part.
-/

namespace DbImage

inductive Recipe where
  /-- An image of the kind with this name. Its variables and its setting for syncing may be given, and
  builder calls follow. -/
  | database (kind : String) (env? : Option (List (String × String))) (fsync : Bool)
      (calls : List BuilderCall)
  /-- An image given by its parts. -/
  | custom (serial : Nat) (name tag : String) (ready : List Readiness.Request)
      (env : List (String × String)) (copies : List (String × SourceValue))
      (command : List String)

namespace Recipe

def readyOf : List Readiness.Request → Except Failure (List Readiness)
  | [] => .ok []
  | r :: rest => do return (← Readiness.ofRequest r) :: (← readyOf rest)

def copiesOf : List (String × SourceValue) → Except Failure (List StagedItem)
  | [] => .ok []
  | (target, value) :: rest => do
    let source ← Source.ofValue value
    return ⟨target, source⟩ :: (← copiesOf rest)

def make : Recipe → Except Failure Image
  | database kind env? fsync calls => do
    let kind ← ImageKind.ofWord kind
    (kind.image ⟨env?.getD Postgres.defaultEnv, [], fsync⟩).calls calls
  | custom serial name tag ready env copies command => do
    let ready ← readyOf ready
    let copies ← copiesOf copies
    return .custom serial ⟨name, tag, ready, Bindings.ofPairs env, copies, command⟩

end Recipe
end DbImage
