import DbImage.Image.Recipe

/-!
Sessions: images under names, made from one another step by step. A step that fails changes nothing,
and no step changes an image that a name already holds. Whoever asks for the variables of an image is
given a mapping of his own, and may bind names anew in it.
-/

namespace DbImage

/-- The images of a session by register. -/
structure Session where
  registers : List (String × Image)
  /-- The mappings of variables that were given away, as their holders have changed them. -/
  givenAway : List Bindings

namespace Session

def empty : Session := ⟨[], []⟩

def get (s : Session) (register : String) : Except Failure Image :=
  match s.registers.find? (·.1 == register) with
  | some (_, i) => .ok i
  | none => .error (.missingKey register)

/-- Puts an image into a register. The latest entry counts. -/
def store (s : Session) (register : String) (i : Image) : Session :=
  { s with registers := (register, i) :: s.registers }

/-- The holder of an image's variables binds a name anew in the mapping that he was given. -/
def rebind (s : Session) (i : Image) (name value : String) : Session :=
  { s with givenAway := i.contract.env.put name value :: s.givenAway }

inductive Question where
  /-- Look at an image. -/
  | look (register : String)
  /-- Are two images equal? -/
  | equal (a b : String)
  /-- How many different images are there among these? -/
  | distinct (registers : List String)

inductive Making where
  | new (recipe : Recipe)
  | call (register : String) (call : BuilderCall)
  | inner (register : String)

inductive Request where
  | make (register : String) (how : Making)
  /-- Ask for the variables of an image, bind a name anew in the mapping that is given away, and look at
  the image again. -/
  | rebind (register name value : String)
  | ask (question : Question)

inductive Answer where
  | image (i : Image)
  | comparison (equal sameKey : Bool)
  | count (n : Nat)
  deriving DecidableEq

/-- The images in registers, unless one of them is empty. -/
def getAll (s : Session) : List String → Except Failure (List Image)
  | [] => .ok []
  | r :: rest => do return (← s.get r) :: (← s.getAll rest)

def made (s : Session) : Making → Except Failure Image
  | .new recipe => recipe.make
  | .call register c => do (← s.get register).call c
  | .inner register => do (← s.get register).inner

def answer (s : Session) : Question → Except Failure Answer
  | .look register => (s.get register).map .image
  | .equal a b => do
    let i ← s.get a
    let j ← s.get b
    return .comparison (decide (i = j)) (decide (i.filingKey = j.filingKey))
  | .distinct registers => do return .count (← s.getAll registers).eraseDups.length

def step (s : Session) : Request → Except Failure Answer × Session
  | .make register how =>
    match s.made how with
    | .ok i => (.ok (.image i), s.store register i)
    | .error e => (.error e, s)
  | .rebind register name value =>
    match s.get register with
    | .ok i =>
      let s := s.rebind i name value
      (s.answer (.look register), s)
    | .error e => (.error e, s)
  | .ask question => (s.answer question, s)

/-- Carries out steps in order and gives their answers. -/
def run (s : Session) : List Request → List (Except Failure Answer) × Session
  | [] => ([], s)
  | r :: rest =>
    let (a, s) := s.step r
    let (as, s) := s.run rest
    (a :: as, s)

theorem get_store (s : Session) (register other : String) (i : Image) :
    (s.store register i).get other = if other = register then .ok i else s.get other := by
  by_cases h : register = other
  · simp [get, store, h]
  · simp [get, store, h, Ne.symm h]

theorem get_rebind (s : Session) (i : Image) (name value register : String) :
    (s.rebind i name value).get register = s.get register := rfl

/-- A step that fails leaves the session as it was. -/
theorem step_snd_of_error {s : Session} {r : Request} {e : Failure}
    (h : (s.step r).1 = .error e) : (s.step r).2 = s := by
  cases r with
  | make register how =>
    simp only [step] at h ⊢
    split <;> simp_all
  | rebind register name value =>
    simp only [step] at h ⊢
    split
    · rename_i i hget
      simp only [hget, answer, get_rebind, Except.map] at h
      cases h
    · rfl
  | ask question => rfl

end Session
end DbImage
