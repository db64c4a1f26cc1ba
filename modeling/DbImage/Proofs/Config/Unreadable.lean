import DbImage.Proofs.Config.Gathering
import DbImage.Proofs.Text.Utf8

/-!
# Configurations that cannot be read

Before a configuration is looked at, its env file and its own file are read.  What is missing or in the
way there is reported as a failure of the configuration.  The one thing that is not is a file whose
bytes are no UTF-8: `readInput_reported_iff`.
-/

namespace DbImage

open Files (Action Host)

namespace Files
namespace Host

variable {h : Host} {path : String}

theorem holdsNul_of_not_mem (hpath : '\u0000' ∉ path.toList) : holdsNul path = false := by
  rw [holdsNul, List.contains_eq_mem]
  exact decide_eq_false hpath

theorem read_of_status_error {reason : Reason} (hpath : '\u0000' ∉ path.toList)
    (hstatus : h.status path = .error reason) :
    h.read path = .error (.refused ⟨reason, path⟩) := by
  rw [read, holdsNul_of_not_mem hpath, hstatus]
  rfl

theorem read_of_status_directory (hpath : '\u0000' ∉ path.toList)
    (hstatus : h.status path = .ok .directory) :
    h.read path = .error (.refused ⟨.isDirectory, path⟩) := by
  rw [read, holdsNul_of_not_mem hpath, hstatus]
  rfl

end Host
end Files

/-! ## Files without a text -/

/-- There is a file at the path, and its bytes are those of no text. -/
def Misencoded (h : Host) (path : String) : Prop :=
  ∃ bytes, h.read path = .ok bytes ∧ ∀ s : String, bytes ≠ s.toUTF8

/-- An env file is asked for, and nothing is at its path. -/
def EnvFileMissing (h : Host) (envFile? : Option String) : Prop :=
  ∃ path, envFile? = some path ∧ path ≠ "" ∧ h.find? path = none

def EnvFileMisencoded (h : Host) (envFile? : Option String) : Prop :=
  ∃ path, envFile? = some path ∧ Misencoded h path

variable {h : Host} {path : String} {bytes : ByteArray}

theorem misencoded_iff_of_read (hread : h.read path = .ok bytes) :
    Misencoded h path ↔ String.fromUTF8? bytes = none := by
  rw [Option.eq_none_iff_forall_ne_some]
  simp only [ne_eq, Text.Utf8.fromUTF8?_eq_some_iff]
  constructor
  · intro hmis s
    obtain ⟨bytes', hread', hne⟩ := hmis
    obtain rfl : bytes = bytes' := Except.ok.inj (hread.symm.trans hread')
    exact hne s
  · exact fun hne => ⟨bytes, hread, hne⟩

theorem Misencoded.exists_find? (hmis : Misencoded h path) : ∃ e, h.find? path = some e := by
  obtain ⟨bytes, hread, -⟩ := hmis
  exact ⟨_, Host.find?_eq_file_iff.mpr hread⟩

/-- What is at a path has no text exactly if it cannot be read as an env file. -/
theorem misencoded_iff_of_find? {e : Files.Entry} (he : h.find? path = some e) :
    Misencoded h path ↔ Variables.statementsOf? e = none := by
  cases e with
  | directory =>
    refine iff_of_false (fun hmis => ?_) (Option.some_ne_none _)
    obtain ⟨bytes, hread, -⟩ := hmis
    rw [Host.find?_eq_file_iff.mpr hread] at he
    cases he
  | file bytes =>
    rw [misencoded_iff_of_read (Host.find?_eq_file_iff.mp he), Variables.statementsOf?,
      Option.map_eq_none_iff]

@[simp]
theorem envFileMissing_none : ¬ EnvFileMissing h none := by
  intro hmissing
  obtain ⟨path, hsome, -⟩ := hmissing
  cases hsome

@[simp]
theorem envFileMissing_some : EnvFileMissing h (some path) ↔ path ≠ "" ∧ h.find? path = none := by
  simp [EnvFileMissing]

@[simp]
theorem envFileMisencoded_none : ¬ EnvFileMisencoded h none := by
  intro hmis
  obtain ⟨path, hsome, -⟩ := hmis
  cases hsome

@[simp]
theorem envFileMisencoded_some : EnvFileMisencoded h (some path) ↔ Misencoded h path := by
  simp [EnvFileMisencoded]

theorem EnvFileMissing.not_misencoded {envFile? : Option String} (hmissing : EnvFileMissing h envFile?) :
    ¬ EnvFileMisencoded h envFile? := by
  intro hmis
  cases envFile? with
  | none => exact envFileMissing_none hmissing
  | some path =>
    obtain ⟨-, hnone⟩ := envFileMissing_some.mp hmissing
    obtain ⟨e, he⟩ := (envFileMisencoded_some.mp hmis).exists_find?
    rw [he] at hnone
    cases hnone

namespace Variables

/-- Gathering fails for an env file that is missing or has no text, and for nothing else. -/
theorem gather_cases (context? : Option Bindings) (envFile? : Option String) (h : Host) :
    (EnvFileMissing h envFile? ∧
      ∃ cause, ((gather context? envFile?).on h).1 = .error (.config cause)) ∨
    (EnvFileMisencoded h envFile? ∧ ((gather context? envFile?).on h).1 = .error .notUtf8) ∨
    (¬ EnvFileMissing h envFile? ∧ ¬ EnvFileMisencoded h envFile? ∧
      ∃ b, ((gather context? envFile?).on h).1 = .ok b) := by
  cases envFile? with
  | none =>
    exact Or.inr (Or.inr ⟨envFileMissing_none, envFileMisencoded_none, _, fst_on_gather_none context? h⟩)
  | some path =>
    simp only [envFileMissing_some, envFileMisencoded_some]
    cases he : h.find? path with
    | none =>
      by_cases hpath : path = ""
      · subst hpath
        refine Or.inr (Or.inr ⟨fun hmissing => hmissing.1 rfl, fun hmis => ?_, _,
          fst_on_gather_empty context? h⟩)
        obtain ⟨e, he'⟩ := hmis.exists_find?
        exact Host.ne_empty_of_find? he' rfl
      · refine Or.inl ⟨⟨hpath, rfl⟩, .missingEnvFile path, ?_⟩
        rw [fst_on_gather_some context? hpath, outcomeOfFile, he]
        rfl
    | some e =>
      have hthere : ¬ (path ≠ "" ∧ some e = none) := fun hmissing => Option.some_ne_none e hmissing.2
      rw [misencoded_iff_of_find? he]
      cases hss : statementsOf? e with
      | none =>
        refine Or.inr (Or.inl ⟨rfl, ?_⟩)
        rw [fst_on_gather_some context? (Host.ne_empty_of_find? he), outcomeOfFile, he]
        simp only [hss]
        rfl
      | some ss =>
        exact Or.inr (Or.inr ⟨hthere, Option.some_ne_none ss, _,
          fst_on_gather_of_statements context? he hss⟩)

end Variables

namespace ImageConfig

theorem outcomeOfText_of_refused {r : Files.Refusal} (hread : h.read path = .error (.refused r)) :
    outcomeOfText h path = .error (.config (.unreadable path r)) := by
  rw [outcomeOfText, hread]

theorem outcomeOfText_of_misencoded (hmis : Misencoded h path) :
    outcomeOfText h path = .error .notUtf8 := by
  obtain ⟨bytes, hread, hne⟩ := hmis
  have hnone := (misencoded_iff_of_read hread).mp ⟨bytes, hread, hne⟩
  rw [outcomeOfText, hread]
  simp only [Variables.textOf, hnone]
  rfl

theorem outcomeOfText_of_text {s : String} (hread : h.read path = .ok s.toUTF8) :
    outcomeOfText h path = .ok (String.ofList (Text.unifyLineEnds s.toList)) := by
  rw [outcomeOfText, hread]
  simp only [Variables.textOf, Text.Utf8.fromUTF8?_eq_some_iff.mpr rfl]
  rfl

/-- A path that a system may be given is refused, or leads to a file with a text or without. -/
theorem read_cases (hpath : '\u0000' ∉ path.toList) (h : Host) :
    (∃ r, h.read path = .error (.refused r)) ∨ Misencoded h path ∨
      ∃ s : String, h.read path = .ok s.toUTF8 := by
  cases hread : h.read path with
  | error fault =>
    obtain ⟨r, hr⟩ := Host.exists_read_eq_refused_iff.mpr
      ⟨Host.holdsNul_of_not_mem hpath, fun bytes hbytes => nomatch hread.symm.trans hbytes⟩
    exact Or.inl ⟨r, hread ▸ hr⟩
  | ok bytes =>
    cases hs : String.fromUTF8? bytes with
    | none => exact Or.inr (Or.inl ((misencoded_iff_of_read hread).mpr hs))
    | some s => exact Or.inr (Or.inr ⟨s, congrArg Except.ok (Text.Utf8.fromUTF8?_eq_some_iff.mp hs)⟩)

theorem outcomeOfText_eq_ok_iff {text : String} :
    outcomeOfText h path = .ok text ↔
      ∃ s : String, h.read path = .ok s.toUTF8 ∧
        text = String.ofList (Text.unifyLineEnds s.toList) := by
  constructor
  · intro htext
    cases hread : h.read path with
    | error fault =>
      rw [outcomeOfText, hread] at htext
      cases fault <;> cases htext
    | ok bytes =>
      cases hs : String.fromUTF8? bytes with
      | none =>
        rw [outcomeOfText_of_misencoded ((misencoded_iff_of_read hread).mpr hs)] at htext
        cases htext
      | some s =>
        obtain rfl := Text.Utf8.fromUTF8?_eq_some_iff.mp hs
        rw [outcomeOfText_of_text hread] at htext
        exact ⟨s, rfl, (Except.ok.inj htext).symm⟩
  · intro htext
    obtain ⟨s, hread, rfl⟩ := htext
    exact outcomeOfText_of_text hread

/-! ## Reading for a configuration -/

/-- All that is read before a text is looked at: the variables and the text of the file. -/
def readInput (context? : Option Bindings) (envFile? : Option String) (path : String) :
    Action (Bindings × String) := do
  let b ← Variables.gather context? envFile?
  let text ← textOfFile path
  return (b, text)

/-- The configuration of a file. -/
def parseFile (context? : Option Bindings) (envFile? : Option String) (path : String) :
    Action ImageConfig := do
  let b ← Variables.gather context? envFile?
  ofFile path b

variable {context? : Option Bindings} {envFile? : Option String}

/-- Gathering leaves the files as they are, so the text is that of the machine at the start. -/
theorem fst_on_readInput (context? : Option Bindings) (envFile? : Option String) (path : String)
    (h : Host) :
    ((readInput context? envFile? path).on h).1 =
      ((Variables.gather context? envFile?).on h).1 >>= fun b =>
        (outcomeOfText h path).map fun text => (b, text) := by
  obtain ⟨log, hlog⟩ := Variables.onlyLogs_gather context? envFile? h
  rw [readInput, Action.on_bind]
  rcases hrun : (Variables.gather context? envFile?).on h with ⟨e | b, h₁⟩
  · rfl
  · rw [hrun] at hlog
    cases hlog
    dsimp only
    rw [Action.on_bind, on_textOfFile]
    change _ = (outcomeOfText { h with log := log } path).map fun text => (b, text)
    cases outcomeOfText { h with log := log } path <;> rfl

theorem fst_on_parseFile (context? : Option Bindings) (envFile? : Option String) (path : String)
    (h : Host) :
    ((parseFile context? envFile? path).on h).1 =
      ((readInput context? envFile? path).on h).1 >>= fun input => ofText input.2 input.1 := by
  obtain ⟨log, hlog⟩ := Variables.onlyLogs_gather context? envFile? h
  rw [fst_on_readInput, parseFile, Action.on_bind]
  rcases hrun : (Variables.gather context? envFile?).on h with ⟨e | b, h₁⟩
  · rfl
  · rw [hrun] at hlog
    cases hlog
    dsimp only
    rw [on_ofFile]
    change _ = (outcomeOfText { h with log := log } path).map (fun text => (b, text)) >>= _
    cases outcomeOfText { h with log := log } path <;> rfl

theorem fst_on_readInput_of_gather {b : Bindings}
    (hgather : ((Variables.gather context? envFile?).on h).1 = .ok b) (path : String) :
    ((readInput context? envFile? path).on h).1 =
      (outcomeOfText h path).map fun text => (b, text) := by
  rw [fst_on_readInput, hgather]
  rfl

theorem fst_on_readInput_of_error {f : Failure}
    (hgather : ((Variables.gather context? envFile?).on h).1 = .error f) (path : String) :
    ((readInput context? envFile? path).on h).1 = .error f := by
  rw [fst_on_readInput, hgather]
  rfl

theorem fst_on_readInput_eq_ok_iff {b : Bindings} {text : String} :
    ((readInput context? envFile? path).on h).1 = .ok (b, text) ↔
      ((Variables.gather context? envFile?).on h).1 = .ok b ∧
        ∃ s : String, h.read path = .ok s.toUTF8 ∧
          text = String.ofList (Text.unifyLineEnds s.toList) := by
  rw [← outcomeOfText_eq_ok_iff, fst_on_readInput]
  cases ((Variables.gather context? envFile?).on h).1 with
  | error f => exact iff_of_false (fun h => nomatch h) (fun h => nomatch h.1)
  | ok b' =>
    change (outcomeOfText h path).map (fun text => (b', text)) = _ ↔ _
    cases outcomeOfText h path <;> simp [Except.map]

/-- A result, or a failure that is the configuration's. -/
def Reported {α : Type} (outcome : Except Failure α) : Prop :=
  (∃ a, outcome = .ok a) ∨ ∃ cause, outcome = .error (.config cause)

theorem not_reported_notUtf8 {α : Type} : ¬ Reported (.error .notUtf8 : Except Failure α) := by
  intro hreported
  obtain ⟨a, ha⟩ | ⟨cause, hcause⟩ := hreported
  · cases ha
  · cases hcause

theorem readInput_cases (context? : Option Bindings) (envFile? : Option String) (h : Host)
    (hpath : '\u0000' ∉ path.toList) :
    Reported ((readInput context? envFile? path).on h).1 ∧ ¬ EnvFileMisencoded h envFile? ∧
        (Misencoded h path → EnvFileMissing h envFile?) ∨
      ((readInput context? envFile? path).on h).1 = .error .notUtf8 ∧
        (EnvFileMisencoded h envFile? ∨ Misencoded h path ∧ ¬ EnvFileMissing h envFile?) := by
  obtain ⟨hmissing, cause, hgather⟩ | ⟨hmis, hgather⟩ | ⟨hthere, hnot, b, hgather⟩ :=
    Variables.gather_cases context? envFile? h
  · refine Or.inl ⟨Or.inr ⟨cause, ?_⟩, hmissing.not_misencoded, fun _ => hmissing⟩
    exact fst_on_readInput_of_error hgather path
  · exact Or.inr ⟨fst_on_readInput_of_error hgather path, Or.inl hmis⟩
  · rw [fst_on_readInput_of_gather hgather]
    obtain ⟨r, hread⟩ | hmis | ⟨s, hread⟩ := read_cases hpath h
    · rw [outcomeOfText_of_refused hread]
      refine Or.inl ⟨Or.inr ⟨_, rfl⟩, hnot, fun hmis => ?_⟩
      obtain ⟨bytes, hbytes, -⟩ := hmis
      rw [hread] at hbytes
      cases hbytes
    · rw [outcomeOfText_of_misencoded hmis]
      exact Or.inr ⟨rfl, Or.inr ⟨hmis, hthere⟩⟩
    · rw [outcomeOfText_of_text hread]
      refine Or.inl ⟨Or.inl ⟨_, rfl⟩, hnot, fun hmis => ?_⟩
      obtain ⟨bytes, hbytes, hne⟩ := hmis
      exact absurd (Except.ok.inj (hbytes.symm.trans hread)) (hne s)

/-- Whatever is at the paths, reading for a configuration ends with the variables and the text of the
file, or with a failure that is the configuration's, unless the env file, or behind an env file that
is not missing the file itself, is there with bytes that are no UTF-8. Then it ends with that failure.
A file that cannot be opened, for whatever reason, and a directory are failures of the configuration
that name the path and the reason. What follows is what the text comes to with the variables. -/
theorem readInput_reported_iff (context? : Option Bindings) (envFile? : Option String) (h : Host)
    {path : String} (hpath : '\u0000' ∉ path.toList) :
    (Reported ((readInput context? envFile? path).on h).1 ↔
      ¬ EnvFileMisencoded h envFile? ∧ (Misencoded h path → EnvFileMissing h envFile?)) ∧
    (¬ Reported ((readInput context? envFile? path).on h).1 →
      ((readInput context? envFile? path).on h).1 = .error .notUtf8) ∧
    (∀ b text, ((readInput context? envFile? path).on h).1 = .ok (b, text) ↔
      ((Variables.gather context? envFile?).on h).1 = .ok b ∧
        ∃ s : String, h.read path = .ok s.toUTF8 ∧
          text = String.ofList (Text.unifyLineEnds s.toList)) ∧
    (∀ b, ((Variables.gather context? envFile?).on h).1 = .ok b →
      (∀ reason, h.status path = .error reason →
        ((readInput context? envFile? path).on h).1 =
          .error (.config (.unreadable path ⟨reason, path⟩))) ∧
      (h.status path = .ok .directory →
        ((readInput context? envFile? path).on h).1 =
          .error (.config (.unreadable path ⟨.isDirectory, path⟩)))) ∧
    ((parseFile context? envFile? path).on h).1 =
      ((readInput context? envFile? path).on h).1 >>= fun input => ofText input.2 input.1 := by
  refine ⟨⟨fun hreported => ?_, fun hcondition => ?_⟩, fun hnot => ?_,
    fun b text => fst_on_readInput_eq_ok_iff, fun b hgather => ⟨fun reason hstatus => ?_,
      fun hstatus => ?_⟩, fst_on_parseFile context? envFile? path h⟩
  · obtain ⟨-, hcondition⟩ | ⟨hnotUtf8, -⟩ := readInput_cases context? envFile? h hpath
    · exact hcondition
    · exact absurd (hnotUtf8 ▸ hreported) not_reported_notUtf8
  · obtain ⟨hreported, -⟩ | ⟨-, hmis | ⟨hmis, hthere⟩⟩ := readInput_cases context? envFile? h hpath
    · exact hreported
    · exact absurd hmis hcondition.1
    · exact absurd (hcondition.2 hmis) hthere
  · obtain ⟨hreported, -⟩ | ⟨hnotUtf8, -⟩ := readInput_cases context? envFile? h hpath
    · exact absurd hreported hnot
    · exact hnotUtf8
  · rw [fst_on_readInput_of_gather hgather,
      outcomeOfText_of_refused (Host.read_of_status_error hpath hstatus)]
    rfl
  · rw [fst_on_readInput_of_gather hgather,
      outcomeOfText_of_refused (Host.read_of_status_directory hpath hstatus)]
    rfl

/-- A file with other line ends, and a directory in the place of the env file. -/
theorem readInput_reported_iff_of_text :
    let h : Host :=
      { files := ⟨[([".env"], .directory), (["db.yml"], .file "user: a\r\n".toUTF8)]⟩
        workingDirectory := []
        environment := []
        log := [] }
    '\u0000' ∉ "db.yml".toList ∧
      ((readInput (some [("A", "1")]) (some ".env") "db.yml").on h).1 =
        .ok ([("A", "1")], "user: a\n") := by
  intro h
  have hpath : '\u0000' ∉ "db.yml".toList := by decide
  have hgather : ((Variables.gather (some [("A", "1")]) (some ".env")).on h).1 =
      .ok [("A", "1")] := Action.eq_ok_of_toOption (by decide +kernel)
  have hread : h.read "db.yml" = .ok "user: a\r\n".toUTF8 :=
    Action.eq_ok_of_toOption (by decide +kernel)
  have hiff := (readInput_reported_iff (some [("A", "1")]) (some ".env") h hpath).2.2.1
  exact ⟨hpath, (hiff _ _).mpr ⟨hgather, "user: a\r\n", hread, by decide⟩⟩

/-- A byte that no text has is not reported. -/
theorem misencoded_file_not_reported :
    let h : Host :=
      { files := ⟨[(["db.yml"], .file ⟨#[0xff]⟩)]⟩
        workingDirectory := []
        environment := []
        log := [] }
    ((readInput (some []) none "db.yml").on h).1 = .error .notUtf8 ∧
      ¬ Reported ((readInput (some []) none "db.yml").on h).1 := by
  intro h
  have houtcome : ((readInput (some []) none "db.yml").on h).1 = .error .notUtf8 :=
    Action.eq_error_of_decide (by decide +kernel)
  exact ⟨houtcome, houtcome ▸ not_reported_notUtf8⟩

end ImageConfig
end DbImage
