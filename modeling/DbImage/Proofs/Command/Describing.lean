import DbImage.Command.Run
import DbImage.Proofs.Config.Gathering
import DbImage.Proofs.Files.Views

/-!
# What describing looks at

A description is made from the configuration file, the env file, the environment and the working
directory.  Scripts are carried as paths: which files they lead to is nothing that a description shows.
Before it is made the paths of the settings are checked for directories.  Between two machines on which
all this is the same no run of `describe` tells a difference, and it leaves either as it was:
`run_describe_eq`.
-/

namespace DbImage

open Files (Host SameDirectories SameView)
open Files.Action (LooksOnlyAt)

variable {paths : List String} {path : String}

namespace Variables

theorem looksOnlyAt_statements (hpath : path ∈ paths) : LooksOnlyAt paths (statements path) := by
  refine LooksOnlyAt.get_bind (fun h k hview => ?_) fun h => ?_
  · rw [Host.isFile_congr (hview.read path hpath), hview.read path hpath]
  split
  · exact .pure []
  · split
    · exact .throw _
    · exact (LooksOnlyAt.ofExcept _).bind fun _ => .pure _

theorem looksOnlyAt_ofFile (hpath : path ∈ paths) : LooksOnlyAt paths (ofFile path) := by
  refine LooksOnlyAt.get_bind (fun h k hview => ?_) fun h => ?_
  · rw [Host.find?_congr (hview.read path hpath)]
  split
  · exact .throw _
  refine (looksOnlyAt_statements hpath).bind fun ss => ?_
  refine (LooksOnlyAt.forIn (fun line _ => (LooksOnlyAt.record _).bind fun _ => .pure _) _ _).bind
    fun _ => ?_
  refine LooksOnlyAt.get_bind (fun h k hview => ?_) fun h => ?_
  · dsimp only
    rw [hview.environment]
  · exact (LooksOnlyAt.record _).bind fun _ => .pure _

theorem looksOnlyAt_gather (context? : Option Bindings) {envFile? : Option String}
    (henv : ∀ path ∈ envFile?, path ∈ paths) : LooksOnlyAt paths (gather context? envFile?) := by
  refine LooksOnlyAt.get_bind (fun h k hview => ?_) fun h => ?_
  · dsimp only
    rw [hview.environment]
  split
  · exact .pure _
  · split
    · exact .pure _
    · exact (looksOnlyAt_ofFile (henv _ rfl)).bind fun _ => .pure _

end Variables

namespace ImageConfig

theorem looksOnlyAt_textOfFile (hpath : path ∈ paths) : LooksOnlyAt paths (textOfFile path) := by
  refine LooksOnlyAt.get_bind (fun h k hview => ?_) fun h => ?_
  · rw [hview.read path hpath]
  split
  · exact .throw _
  · exact .throw _
  · exact (LooksOnlyAt.ofExcept _).bind fun _ => .pure _

theorem looksOnlyAt_ofFile (hpath : path ∈ paths) (b : Bindings) :
    LooksOnlyAt paths (ofFile path b) :=
  (looksOnlyAt_textOfFile hpath).bind fun _ => (LooksOnlyAt.record _).bind fun _ => .ofExcept _

end ImageConfig

namespace Command

/-- The files that a request reads settings from. -/
def Request.files (r : Request) : List String :=
  (r.value? .config).toList ++ (r.value? .envFile).toList

theorem looksOnlyAt_startingPoint (r : Request) : LooksOnlyAt r.files (startingPoint r) := by
  have hfile : ∀ path ∈ r.value? .config, path ∈ r.files := fun path hpath =>
    List.mem_append_left _ (Option.mem_toList.mpr hpath)
  have henv : ∀ path ∈ r.value? .envFile, path ∈ r.files := fun path hpath =>
    List.mem_append_right _ (Option.mem_toList.mpr hpath)
  rw [startingPoint]
  split
  · exact .pure _
  · rename_i path hpath
    split
    · exact .pure _
    refine (Variables.looksOnlyAt_gather none henv).bind fun b => ?_
    refine (ImageConfig.looksOnlyAt_ofFile (hfile path hpath) b).bind fun c => ?_
    refine LooksOnlyAt.get_bind (fun h k hview => ?_) fun h => .pure _
    rw [ImageConfig.directoryOf, ImageConfig.directoryOf, hview.workingDirectory]

theorem looksOnlyAt_buildImage (r : Request) : LooksOnlyAt r.files (buildImage r) := by
  refine (looksOnlyAt_startingPoint r).bind fun start => ?_
  refine (LooksOnlyAt.ofExcept _).bind fun i => ?_
  refine (LooksOnlyAt.ofExcept _).bind fun j => ?_
  exact (LooksOnlyAt.record _).bind fun _ => .pure _

theorem looksOnlyAt_describe (r : Request) : LooksOnlyAt r.files (describe r) := by
  refine (looksOnlyAt_buildImage r).bind fun i => ?_
  split
  · exact .pure _
  · exact .pure _

/-! ## The check of the settings -/

section

variable {r : Request} {h k : Host}

theorem checkValues_congr {gs : List Given}
    (hsame : ∀ g ∈ gs, checkValue h g.1 g.2 = checkValue k g.1 g.2) :
    checkValues h gs = checkValues k gs := by
  induction gs with
  | nil => rfl
  | cons g gs ih =>
    rw [List.forall_mem_cons] at hsame
    rw [checkValues, checkValues, hsame.1, ih hsame.2]

/-- What a request is given shows the same on the two machines: what its files hold, and which of its
scripts are directories. -/
structure SameInputs (r : Request) (h k : Host) : Prop where
  workingDirectory : h.workingDirectory = k.workingDirectory
  environment : h.environment = k.environment
  read : ∀ path ∈ r.files, h.read path = k.read path
  isDirectory : ∀ path ∈ r.values .initSql, h.isDirectory path = k.isDirectory path

theorem check_congr (hsame : SameInputs r h k) : r.check h = r.check k := by
  rw [Request.check, Request.check]
  refine congrArg (· >>= _) (checkValues_congr fun g hg => ?_)
  obtain ⟨s, -, hg⟩ := List.mem_flatMap.mp hg
  obtain ⟨value, hvalue, rfl⟩ := List.mem_map.mp hg
  have hlast : ∀ s, s ≠ .initSql → value ∈ r.lookedAt s → r.value? s = some value := by
    intro s hs hvalue
    rw [Request.lookedAt, if_neg hs] at hvalue
    exact Option.mem_toList.mp hvalue
  show checkValue h s value = checkValue k s value
  by_cases hfile : s.isFile = true
  · have hdirectory : h.isDirectory value = k.isDirectory value := by
      cases s with
      | initSql => exact hsame.isDirectory value hvalue
      | config =>
        refine Host.isDirectory_congr (hsame.read value (List.mem_append_left _ ?_))
        exact Option.mem_toList.mpr (hlast .config (by decide) hvalue)
      | envFile =>
        refine Host.isDirectory_congr (hsame.read value (List.mem_append_right _ ?_))
        exact Option.mem_toList.mpr (hlast .envFile (by decide) hvalue)
      | _ => cases hfile
    rw [checkValue, checkValue, hdirectory]
  · rw [Bool.not_eq_true] at hfile
    rw [checkValue, checkValue, hfile]
    rfl

theorem SameInputs.of_sameDirectories (hd : SameDirectories h k)
    (henv : h.environment = k.environment) (hread : ∀ path ∈ r.files, h.read path = k.read path) :
    SameInputs r h k :=
  ⟨hd.workingDirectory.symm, henv, hread,
    fun path _ => Host.isDirectory_eq_of_sameDirectories hd path⟩

theorem ofArguments_eq_some_iff {args : List String} :
    Request.ofArguments args = some r ↔ asked args = .request r := by
  rw [Request.ofArguments]
  cases asked args <;> simp

/-- Arguments that ask for nothing to be done are answered alike everywhere. -/
theorem run_of_no_request {args : List String} (hr : Request.ofArguments args = none) :
    ∃ outcome, ∀ h, run args h = (outcome, h) := by
  cases hasked : asked args with
  | misuse => exact ⟨usage, fun h => by rw [run, hasked]⟩
  | help => exact ⟨helped, fun h => by rw [run, hasked]⟩
  | request r =>
    rw [ofArguments_eq_some_iff.mpr hasked] at hr
    cases hr

/-- A request to describe is answered alike on the two machines, and changes neither. -/
theorem run_congr {args : List String} (hr : Request.ofArguments args = some r)
    (hverb : r.verb = .describe) (hsame : SameInputs r h k) :
    (run args h).1 = (run args k).1 ∧
      (run args h).2.files = h.files ∧ (run args k).2.files = k.files := by
  rw [run, run, ofArguments_eq_some_iff.mp hr]
  dsimp only
  rw [← check_congr hsame]
  cases r.check h with
  | error m => cases m <;> exact ⟨rfl, rfl, rfl⟩
  | ok u =>
    have hview : SameView r.files { h with log := [] } { k with log := [] } :=
      ⟨hsame.workingDirectory, hsame.environment, rfl, hsame.read⟩
    obtain ⟨result, log, hh, hk⟩ := looksOnlyAt_describe r _ _ hview
    dsimp only
    rw [perform, hverb]
    dsimp only
    rw [hh, hk]
    exact ⟨rfl, rfl, rfl⟩

end

/-- Whatever the arguments of `describe` are: machines that show the same of what they name, which is
what comes of reading the configuration file and the env file and which of the scripts are directories,
give one outcome, and both stay as they are. So do machines with the same directories whose files
differ anywhere else, those of the scripts among them. -/
theorem run_describe_eq {args : List String} {h k : Host}
    (hdescribe : ∀ r, Request.ofArguments args = some r → r.verb = .describe)
    (hsame : ∀ r, Request.ofArguments args = some r → SameInputs r h k) :
    (run args h).1 = (run args k).1 ∧
    (run args h).2.files = h.files ∧ (run args k).2.files = k.files ∧
    ∀ other, SameDirectories h other → h.environment = other.environment →
      (∀ r, Request.ofArguments args = some r → ∀ path ∈ r.files, h.read path = other.read path) →
      (run args h).1 = (run args other).1 := by
  cases hargs : Request.ofArguments args with
  | none =>
    obtain ⟨outcome, hrun⟩ := run_of_no_request hargs
    rw [hrun, hrun]
    exact ⟨rfl, rfl, rfl, fun other _ _ _ => by rw [hrun]⟩
  | some r =>
    have hverb := hdescribe r hargs
    obtain ⟨hout, hh, hk⟩ := run_congr hargs hverb (hsame r hargs)
    refine ⟨hout, hh, hk, fun other hd henv hread => ?_⟩
    exact (run_congr hargs hverb (.of_sameDirectories hd henv (hread r rfl))).1

/-- The scripts of the configuration and of the command line are there on one machine only. -/
theorem run_describe_eq_without_scripts :
    let config := "image: postgis\ninit_sql:\n  - path: seed.sql\n".toUTF8
    let h : Host :=
      { files := ⟨[(["tmp"], .directory), (["tmp", "db.yaml"], .file config),
          (["tmp", "seed.sql"], .file "SELECT 1;".toUTF8),
          (["tmp", "extra.sql"], .file "SELECT 2;".toUTF8)]⟩
        workingDirectory := ["tmp"]
        environment := [("HOME", "/")]
        log := [] }
    let k : Host :=
      { h with files := ⟨[(["tmp"], .directory), (["tmp", "db.yaml"], .file config)]⟩ }
    let args := ["describe", "--config", "db.yaml", "--init-sql", "extra.sql"]
    ∃ r, Request.ofArguments args = some r ∧ r.verb = .describe ∧ SameInputs r h k ∧
      (run args h).1.exitCode = 0 ∧ (run args h).1 = (run args k).1 ∧
      (run args h).2.files = h.files := by
  intro config h k args
  let r : Request := ⟨false, .describe, [(.config, "db.yaml"), (.initSql, "extra.sql")], []⟩
  have hargs : Request.ofArguments args = some r := by decide +kernel
  have hsame : SameInputs r h k := by
    refine ⟨rfl, rfl, fun path hpath => ?_, fun path hpath => ?_⟩
    · have hfiles : r.files = ["db.yaml"] := by decide
      obtain rfl : path = "db.yaml" := List.mem_singleton.mp (hfiles ▸ hpath)
      have hh : h.read "db.yaml" = .ok config := Files.Action.eq_ok_of_toOption (by decide +kernel)
      have hk : k.read "db.yaml" = .ok config := Files.Action.eq_ok_of_toOption (by decide +kernel)
      rw [hh, hk]
    · have hscripts : r.values .initSql = ["extra.sql"] := by decide
      obtain rfl : path = "extra.sql" := List.mem_singleton.mp (hscripts ▸ hpath)
      have hdirectory : h.isDirectory "extra.sql" = false := by decide +kernel
      rw [hdirectory]
      decide +kernel
  have hrequest : ∀ r', Request.ofArguments args = some r' → r = r' :=
    fun r' hr' => Option.some.inj (hargs.symm.trans hr')
  obtain ⟨hout, hfiles, -⟩ := run_describe_eq (fun r' hr' => hrequest r' hr' ▸ rfl)
    (fun r' hr' => hrequest r' hr' ▸ hsame)
  exact ⟨r, hargs, rfl, hsame, by decide +kernel, hout, hfiles⟩

end Command
end DbImage
