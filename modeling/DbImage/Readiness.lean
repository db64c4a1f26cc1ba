import DbImage.Checks
import DbImage.Failure

/-!
Readiness: the conditions that whoever runs a container waits for before using it. A condition is
plain data; `describe` is its one-line form.
-/

namespace DbImage

open Number

inductive ReadinessKind where
  | nothing
  | stdoutMessage
  | stderrMessage
  | duration
  | healthcheck
  | exit
  deriving DecidableEq, Repr

namespace ReadinessKind

def all : List ReadinessKind :=
  [nothing, stdoutMessage, stderrMessage, duration, healthcheck, exit]

def word : ReadinessKind → String
  | nothing => "nothing"
  | stdoutMessage => "stdout_message"
  | stderrMessage => "stderr_message"
  | duration => "duration"
  | healthcheck => "healthcheck"
  | exit => "exit"

def ofWord? (word : String) : Option ReadinessKind :=
  all.find? (·.word == word)

end ReadinessKind

/-- A condition. The kind says which of the other fields matters, and the others may be set all the
same. -/
structure Readiness where
  kind : ReadinessKind
  message : Option String
  duration : Option Double
  exitCode : Option Int
  deriving DecidableEq, Repr

namespace Readiness

def ofKind (kind : ReadinessKind) : Readiness := ⟨kind, none, none, none⟩

def onStdout (message : String) : Readiness := { ofKind .stdoutMessage with message := message }

def onStderr (message : String) : Readiness := { ofKind .stderrMessage with message := message }

/-- What a message without text is shown as. -/
def messageText (r : Readiness) : String :=
  r.message.getD "None"

/-- The one-line form. A duration that is not set has none, nor has an exit code too long to write. -/
def describe (r : Readiness) : Except Failure String :=
  match r.kind with
  | .stdoutMessage => .ok ("stdout: \"" ++ r.messageText ++ "\"")
  | .stderrMessage => .ok ("stderr: \"" ++ r.messageText ++ "\"")
  | .duration =>
    match r.duration with
    | some d => .ok ("sleep: " ++ d.toCompactText ++ "s")
    | none => .error .wrongType
  | .exit =>
    match r.exitCode with
    | some code =>
      if digitLimit < (Nat.repr code.natAbs).length then .error .badValue
      else .ok ("exit: " ++ toString code)
    | none => .ok "exit"
  | .nothing => .ok ReadinessKind.nothing.word
  | .healthcheck => .ok ReadinessKind.healthcheck.word

/-! ## Making conditions from unchecked values -/

inductive Request where
  | nothing
  | healthcheck
  | exit (code : Datum)
  | messageOnStdout (message : Datum)
  | messageOnStderr (message : Datum)
  | seconds (length : Datum)
  | millis (length : Datum)
  | fields (fields : List (String × Datum))

def kindOf : Datum → Checked ReadinessKind
  | .scalar (.text s) =>
    match ReadinessKind.ofWord? s with
    | some k => .ok k
    | none => Checked.complain (.notAmong (ReadinessKind.all.map (·.word)))
  | _ => Checked.complain (.notAmong (ReadinessKind.all.map (·.word)))

/-- Checks all fields and reports what is wrong with each. Fields of other names are ignored. -/
def ofFields (fields : List (String × Datum)) : Checked Readiness :=
  let kind := Checks.field fields "kind" .nothing kindOf
  let message := Checks.field fields "message" none (Checks.optional Checks.text)
  let duration := Checks.field fields "duration" none (Checks.optional Checks.number)
  let exitCode := Checks.field fields "exit_code" none (Checks.optional Checks.integer)
  match kind, message, duration, exitCode with
  | .ok kind, .ok message, .ok duration, .ok exitCode => .ok ⟨kind, message, duration, exitCode⟩
  | kind, message, duration, exitCode =>
    .error (kind.issues ++ message.issues ++ duration.issues ++ exitCode.issues)

/-- The length of a wait. Text is read as a number. -/
def lengthOf : Datum → Except Failure Double
  | .scalar (.float x) => .ok x
  | .scalar (.bool b) => .ok (Double.ofRatio false (if b then 1 else 0) 1)
  | .scalar (.int n) => toExcept .tooLarge (Double.ofInt? n)
  | .scalar (.text s) => toExcept .badValue (Double.ofText? s.toList)
  | .scalar (.bytes b) =>
    toExcept .badValue (Double.ofText? (b.data.toList.map fun u =>
      if u < 0x80 then Char.ofNat u.toNat else '?'))
  | _ => .error .wrongType
where
  toExcept (failure : Failure) : Option Double → Except Failure Double
    | some x => .ok x
    | none => .error failure

/-- Only numbers can be divided, so only they give a length in milliseconds. -/
def millisOf : Datum → Except Failure Double
  | .scalar (.text _) => .error .wrongType
  | .scalar (.bytes _) => .error .wrongType
  | d => (lengthOf d).map (·.divNat 1000)

def checked : Checked Readiness → Except Failure Readiness :=
  Except.mapError (.invalid "WaitFor")

def ofRequest : Request → Except Failure Readiness
  | .nothing => .ok (ofKind .nothing)
  | .healthcheck => .ok (ofKind .healthcheck)
  | .exit code => checked (ofFields [("kind", .text "exit"), ("exit_code", code)])
  | .messageOnStdout message =>
    checked (ofFields [("kind", .text "stdout_message"), ("message", message)])
  | .messageOnStderr message =>
    checked (ofFields [("kind", .text "stderr_message"), ("message", message)])
  | .seconds length =>
    (lengthOf length).map fun d => { ofKind .duration with duration := d }
  | .millis length =>
    (millisOf length).map fun d => { ofKind .duration with duration := d }
  | .fields fields => checked (ofFields fields)

end Readiness
end DbImage
