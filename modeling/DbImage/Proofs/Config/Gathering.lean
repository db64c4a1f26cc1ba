import DbImage.Proofs.Config.Variables
import DbImage.Proofs.Files.Standing

/-!
# What is gathered

The outcomes of gathering variables and of reading a configuration file as functions of the machine.
An env file adds what its statements bind, fails where nothing is at its path or its bytes are no
UTF-8, and a path that is empty is none at all.
-/

namespace DbImage

open Files (Action Entry Host)

namespace Files

variable {h : Host} {path : String}

theorem Action.on_forIn_record {α : Type} (event : α → Event) (as : List α) (h : Host) :
    (forIn as PUnit.unit fun a _ => do
        record (event a)
        pure (ForInStep.yield PUnit.unit) : Action PUnit).on h =
      (.ok PUnit.unit, { h with log := h.log ++ as.map event }) := by
  induction as generalizing h with
  | nil => rw [List.map_nil, List.append_nil]; rfl
  | cons a as ih =>
    rw [List.forIn_cons, on_bind, on_bind, on_record]
    dsimp only
    rw [on_pure]
    dsimp only
    rw [ih, List.append_assoc]
    rfl

end Files

namespace Variables

/-- The statements of an env file. A directory has none, and bytes that are no UTF-8 cannot be read. -/
def statementsOf? : Entry → Option (List EnvFile.Statement)
  | .directory => some []
  | .file bytes => (String.fromUTF8? bytes).map fun s =>
    EnvFile.statements (Text.unifyLineEnds s.toList)

/-- What comes of the variables of an env file. -/
def outcomeOfFile (h : Host) (path : String) : Except Failure Bindings :=
  match h.find? path with
  | none => .error (.config (.missingEnvFile path))
  | some e =>
    match statementsOf? e with
    | none => .error .notUtf8
    | some ss => .ok (EnvFile.bindings h.environment ss)

theorem on_statements {h : Host} {path : String} {e : Entry} (he : h.find? path = some e) :
    (statements path).on h =
      (match statementsOf? e with
        | none => .error .notUtf8
        | some ss => .ok ss, h) := by
  rw [statements, Action.on_bind, Action.on_get]
  dsimp only
  cases e with
  | directory =>
    have hfile : h.isFile path = false := by rw [Host.isFile, he]
    rw [hfile]
    rfl
  | file bytes =>
    have hfile : h.isFile path = true := by rw [Host.isFile, he]
    rw [hfile, Host.find?_eq_file_iff.mp he]
    simp only [Bool.not_true, Bool.false_eq_true, if_false]
    rw [Action.on_bind, Action.on_ofExcept, textOf, statementsOf?]
    cases String.fromUTF8? bytes <;> rfl

theorem fst_on_ofFile (h : Host) (path : String) : ((ofFile path).on h).1 = outcomeOfFile h path := by
  rw [ofFile, outcomeOfFile, Action.on_bind, Action.on_get]
  dsimp only
  cases he : h.find? path with
  | none => rfl
  | some e =>
    simp only [Option.isNone_some, Bool.false_eq_true, if_false]
    rw [Action.on_bind, on_statements he]
    cases statementsOf? e with
    | none => rfl
    | some ss =>
      dsimp only
      rw [Action.on_bind, Action.on_forIn_record]
      rfl

theorem fst_on_gather_none (context? : Option Bindings) (h : Host) :
    ((gather context? none).on h).1 = .ok (context?.getD h.environment) := rfl

theorem fst_on_gather_empty (context? : Option Bindings) (h : Host) :
    ((gather context? (some "")).on h).1 = .ok (context?.getD h.environment) := rfl

/-- The context is put over what the env file gives. -/
theorem fst_on_gather_some (context? : Option Bindings) {path : String} (hpath : path ≠ "")
    (h : Host) :
    ((gather context? (some path)).on h).1 =
      (outcomeOfFile h path).map fun b => b.overlay (context?.getD h.environment) := by
  have hne : path.isEmpty = false := by simpa using hpath
  rw [gather, Action.on_bind, Action.on_get]
  dsimp only
  rw [hne, ← fst_on_ofFile]
  simp only [Bool.false_eq_true, if_false]
  rw [Action.on_bind]
  rcases (ofFile path).on h with ⟨e | b, h'⟩ <;> rfl

/-- The variables of a file, where there is one whose statements can be read. -/
theorem fst_on_gather_of_statements (context? : Option Bindings) {h : Host} {path : String} {e : Entry}
    {ss : List EnvFile.Statement} (he : h.find? path = some e) (hss : statementsOf? e = some ss) :
    ((gather context? (some path)).on h).1 =
      .ok ((EnvFile.bindings h.environment ss).overlay (context?.getD h.environment)) := by
  rw [fst_on_gather_some context? (Host.ne_empty_of_find? he), outcomeOfFile, he]
  simp only [hss]
  rfl

end Variables

namespace ImageConfig

/-- A text is read with the variables that a context and an env file give. -/
def parseText (context? : Option Bindings) (envFile? : Option String) (text : String) :
    Action ImageConfig := do
  let b ← Variables.gather context? envFile?
  MonadExcept.ofExcept (ofText text b)

theorem fst_on_parseText (context? : Option Bindings) (envFile? : Option String) (text : String)
    (h : Host) :
    ((parseText context? envFile? text).on h).1 =
      ((Variables.gather context? envFile?).on h).1 >>= ofText text := by
  rw [parseText, Action.on_bind]
  rcases (Variables.gather context? envFile?).on h with ⟨e | b, h'⟩
  · rfl
  · dsimp only
    rw [Action.on_ofExcept]
    rfl

/-- What comes of the text of a configuration file. -/
def outcomeOfText (h : Host) (path : String) : Except Failure String :=
  match h.read path with
  | .error .nulInPath => .error .badValue
  | .error (.refused r) => .error (.config (.unreadable path r))
  | .ok bytes => (Variables.textOf bytes).map String.ofList

theorem on_textOfFile (path : String) (h : Host) :
    (textOfFile path).on h = (outcomeOfText h path, h) := by
  rw [textOfFile, outcomeOfText, Action.on_bind, Action.on_get]
  dsimp only
  cases h.read path with
  | error fault => cases fault <;> rfl
  | ok bytes =>
    dsimp only
    rw [Action.on_bind, Action.on_ofExcept]
    cases Variables.textOf bytes <;> rfl

/-- The variables come in only after the text of the file is there. -/
theorem on_ofFile (path : String) (b : Bindings) (h : Host) :
    (ofFile path b).on h =
      match outcomeOfText h path with
      | .error f => (.error f, h)
      | .ok text => (ofText text b, { h with log := h.log ++ [.parsingConfig path] }) := by
  rw [ofFile, Action.on_bind, on_textOfFile]
  cases outcomeOfText h path with
  | error f => rfl
  | ok text =>
    dsimp only
    rw [Action.on_bind, Action.on_record]
    dsimp only
    rw [Action.on_ofExcept]

end ImageConfig
end DbImage
