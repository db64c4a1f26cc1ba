import DbImage.Proofs.Compose.Staged
import DbImage.Proofs.Files.Directories
import DbImage.Proofs.Image.Scripts

/-!
# What the conversion of an image leaves behind

The builders number the scripts, so each is staged under a name of its own, and none under the name of
the compose file.  `convert_image` says what stands where after a conversion that succeeds: the
scripts, the compose file, and otherwise at most new directories.
-/

namespace DbImage

open Files (Action AddsDirectories Host IsName Location OnTheWay SameDirectories Tree join steps)

namespace Postgres

theorem scriptName_ne_fileName (n : Nat) : scriptName n ≠ Compose.fileName := by
  intro e
  have hi := head?_scriptName n
  rw [e] at hi
  revert hi
  decide

end Postgres

namespace Compose

open Postgres (scriptName scriptTarget)

/-- Where the `n`-th script is staged. -/
def scriptPath (out : String) (n : Nat) : String :=
  join (join out stagingDirectory) (scriptName n)

def composePath (out : String) : String :=
  join out fileName

/-- The mounts of `n` scripts. -/
def scriptMounts (n : Nat) : List Mount :=
  (List.range n).map fun i => ⟨"./initdb/" ++ scriptName i, scriptTarget i⟩

/-- The machine once the directories are made that a conversion writes to: the output directory and,
if there are files to stage, the directory for them. -/
def prepared (c : Contract) (out : String) (h : Host) : Host :=
  let h := ((Action.ensureDirectories out).on h).2
  if c.copies.isEmpty then h else ((Action.ensureDirectories (join out stagingDirectory)).on h).2

/-- What a conversion leaves behind. -/
structure Converted (c : Contract) (service out : String) (scripts : List Source)
    (h h' : Host) : Prop where
  /-- Each script has a file with its content, as that was once the directories were made. -/
  script : ∀ n (hn : n < scripts.length), ∃ bytes,
    scripts[n].content (prepared c out h) = .ok bytes ∧ h'.read (scriptPath out n) = .ok bytes
  composeFile : ∃ text, render c service (scriptMounts scripts.length) = .ok text ∧
    h'.read (composePath out) = .ok text.toUTF8
  /-- Everywhere else nothing changes, but for directories made where nothing was. -/
  others : ∀ l, (∀ n, n < scripts.length → h'.place? (scriptPath out n) ≠ some l) →
    h'.place? (composePath out) ≠ some l →
    h'.files.get? l = h.files.get? l ∨
      h.files.get? l = none ∧ h'.files.get? l = some .directory
  /-- Without scripts the only directories made are those that making the output directory makes. -/
  directories : scripts = [] → ∀ l, h'.files.get? l = some .directory →
    ((Action.ensureDirectories out).on h).2.files.get? l = some .directory
  /-- Without scripts no directory is made for them, unless a step upwards in the path of the output
  directory has passed it. -/
  noStaging : scripts = [] → ".." ∉ steps out →
    ∀ l, h'.place? (join out stagingDirectory) = some l → h.files.get? l = none →
      h'.files.get? l = none

variable {c : Contract} {service out path : String} {h h' : Host}

theorem isName_stagingDirectory : IsName stagingDirectory := by
  refine ⟨?_, ?_, ?_, ?_⟩ <;> decide

theorem isName_fileName : IsName fileName := by
  refine ⟨?_, ?_, ?_, ?_⟩ <;> decide

/-! ## The machine that the files are written on -/

theorem addsDirectories_prepared (c : Contract) (out : String) (h : Host) :
    AddsDirectories (fun _ => True) h (prepared c out h) := by
  have hadds := fun path h =>
    (Files.Action.addsDirectories_ensureDirectories path h).mono (Q := fun _ => True)
      fun _ _ => trivial
  unfold prepared
  dsimp only
  split
  · exact hadds out h
  · exact (hadds out h).trans (hadds _ _)

theorem prepared_of_copies_nil (out : String) (h : Host) (hcopies : c.copies = []) :
    prepared c out h = ((Action.ensureDirectories out).on h).2 := by
  rw [prepared, hcopies]
  rfl

theorem on_stage_eq_ok {mounts : List Mount} (hrun : (stage c out).on h = (.ok mounts, h')) :
    (stageItems (join out stagingDirectory) c.copies).on
      (if c.copies.isEmpty then h
        else ((Action.ensureDirectories (join out stagingDirectory)).on h).2) =
      (.ok mounts, h') := by
  unfold stage at hrun
  split at hrun
  · rename_i hempty
    rw [if_pos hempty, List.isEmpty_iff.mp hempty]
    exact hrun
  · rename_i hsome
    obtain ⟨_, h₁, hmake, hrest⟩ := Action.on_bind_eq_ok.mp hrun
    rw [if_neg hsome, hmake]
    exact hrest

/-- A conversion makes the directories, stages the files and then writes the compose file. -/
theorem on_convert_eq_ok (hrun : (convert c service out).on h = (.ok path, h')) :
    ∃ mounts h₁ place text,
      (stageItems (join out stagingDirectory) c.copies).on (prepared c out h) =
        (.ok mounts, h₁) ∧
      h₁.writable (composePath out) = .ok place ∧ render c service mounts = .ok text ∧
      Host.Wrote place text.toUTF8 h₁ h' ∧ path = composePath out := by
  rw [convert, Action.on_bind_eq_ok] at hrun
  obtain ⟨_, h₀, hmake, hrun⟩ := hrun
  rw [Action.on_bind_eq_ok] at hrun
  obtain ⟨mounts, h₁, hstage, hrun⟩ := hrun
  dsimp only at hrun
  rw [Action.on_bind_eq_ok] at hrun
  obtain ⟨place, h₂, hopen, hrun⟩ := hrun
  obtain ⟨hw, rfl⟩ := Action.on_openForWriting_eq_ok.mp hopen
  rw [Action.on_bind_eq_ok] at hrun
  obtain ⟨text, h₃, htext, hrun⟩ := hrun
  rw [Action.on_ofExcept, Prod.mk.injEq] at htext
  obtain ⟨htext, rfl⟩ := htext
  simp only [Action.on_bind, Action.on_put, Action.on_record, Action.on_pure, Prod.mk.injEq,
    Except.ok.injEq] at hrun
  obtain ⟨rfl, rfl⟩ := hrun
  refine ⟨mounts, h₁, place, text, ?_, hw, htext, ⟨rfl, ?_⟩, rfl⟩
  · rw [prepared, hmake]
    exact on_stage_eq_ok hstage
  · rw [Host.files_put, Host.files_put, Tree.set_set]

/-! ## Numbered scripts -/

/-- Scripts of different numbers go to different places. -/
theorem eq_of_samePlace_scriptPath {m n : Nat}
    (hsame : h.SamePlace (scriptPath out m) (scriptPath out n)) : m = n :=
  Postgres.scriptName_inj
    (Host.eq_of_samePlace_join (Postgres.isName_scriptName m) (Postgres.isName_scriptName n) hsame)

theorem not_samePlace_scriptPath_composePath {n : Nat} :
    ¬ h.SamePlace (scriptPath out n) (composePath out) := fun hsame =>
  Postgres.scriptName_ne_fileName n
    (Host.eq_of_samePlace_join (Postgres.isName_scriptName n) isName_fileName hsame)

section

variable {scripts : List Source}

theorem stagedPath_script (out : String) (n : Nat) (s : Source) :
    stagedPath (join out stagingDirectory) ⟨scriptTarget n, s⟩ = scriptPath out n := by
  rw [stagedPath, Postgres.baseName_scriptTarget, scriptPath]

theorem mountOf_script (n : Nat) (s : Source) :
    mountOf ⟨scriptTarget n, s⟩ = ⟨"./initdb/" ++ scriptName n, scriptTarget n⟩ := by
  rw [mountOf, Postgres.baseName_scriptTarget]
  rfl

theorem map_mountOf_scripts (hcopies : c.copies = scripts.mapIdx fun n s => ⟨scriptTarget n, s⟩) :
    c.copies.map mountOf = scriptMounts scripts.length := by
  rw [hcopies, scriptMounts]
  refine List.ext_getElem (by simp) fun n hn hn' => ?_
  rw [List.getElem_map, List.getElem_mapIdx, List.getElem_map, List.getElem_range, mountOf_script]

theorem mem_copies_iff (hcopies : c.copies = scripts.mapIdx fun n s => ⟨scriptTarget n, s⟩)
    {item : StagedItem} :
    item ∈ c.copies ↔ ∃ n, ∃ hn : n < scripts.length, ⟨scriptTarget n, scripts[n]⟩ = item := by
  rw [hcopies, List.mem_mapIdx]

/-- Numbered scripts go to different names. -/
theorem apart_of_scripts (hcopies : c.copies = scripts.mapIdx fun n s => ⟨scriptTarget n, s⟩)
    (hapart : ∀ r, .reference r ∈ scripts → ∀ n, n < scripts.length →
      ¬ h.SamePlace r.text (scriptPath out n)) :
    Apart (join out stagingDirectory) c.copies h := by
  refine ⟨fun item hitem => ?_, ?_, fun item hitem r hr other hother => ?_⟩
  · obtain ⟨n, -, rfl⟩ := (mem_copies_iff hcopies).mp hitem
    rw [Postgres.baseName_scriptTarget]
    exact Postgres.isName_scriptName n
  · rw [hcopies, List.pairwise_iff_getElem]
    intro m n hm hn hmn
    rw [List.getElem_mapIdx, List.getElem_mapIdx, Postgres.baseName_scriptTarget,
      Postgres.baseName_scriptTarget]
    exact fun e => Nat.ne_of_lt hmn (Postgres.scriptName_inj e)
  · obtain ⟨m, hm, rfl⟩ := (mem_copies_iff hcopies).mp hitem
    obtain ⟨n, hn, rfl⟩ := (mem_copies_iff hcopies).mp hother
    rw [stagedPath_script]
    exact hapart r (hr ▸ List.getElem_mem hm) n hn

end

/-- Without a step upwards in the path, making a directory does not make one inside it. -/
theorem ensureDirectories_not_inside {name : String} (hname : IsName name)
    (habove : ".." ∉ steps out) {l : Location}
    (hp : ((Action.ensureDirectories out).on h).2.place? (join out name) = some l)
    (hnone : h.files.get? l = none) :
    ((Action.ensureDirectories out).on h).2.files.get? l = none := by
  have ha := Files.Action.addsDirectories_ensureDirectories out h
  rcases ha.files l with he | ⟨-, -, hway⟩
  · rw [he, hnone]
  · have hup := (hway habove).length_le
    rw [Host.place?_join_of_not_above hname habove hp, Host.start, ha.workingDirectory,
      List.length_append, List.length_singleton] at hup
    omega

/-! ## The files left behind

The scripts are staged on the prepared machine, which leads to `h₁`, and then the compose file is
written, which leads to `h'`. -/

section

variable {scripts : List Source} {h₁ : Host} {place l : Location} {content : ByteArray}

/-- Writing the compose file leaves the scripts as they were staged. -/
theorem read_scriptPath (hcopies : c.copies = scripts.mapIdx fun n s => ⟨scriptTarget n, s⟩)
    (hs : Staged (join out stagingDirectory) c.copies (prepared c out h) h₁)
    (hw : h₁.writable (composePath out) = .ok place) (hp : Host.Wrote place content h₁ h') {n : Nat}
    (hn : n < scripts.length) :
    ∃ bytes, scripts[n].content (prepared c out h) = .ok bytes ∧
      h'.read (scriptPath out n) = .ok bytes := by
  have hitem : ⟨scriptTarget n, scripts[n]⟩ ∈ c.copies := (mem_copies_iff hcopies).mpr ⟨n, hn, rfl⟩
  obtain ⟨bytes, hbytes, hread⟩ := hs.content _ hitem
  rw [stagedPath_script] at hread
  have hother : ∀ l, h₁.place? (scriptPath out n) = some l → l ≠ place := fun l hl e =>
    not_samePlace_scriptPath_composePath ⟨place, e ▸ hl, Host.place?_of_writable hw⟩
  exact ⟨bytes, hbytes, Host.read_congr (hp.sameDirectories hw)
    (fun l hl => hp.get?_of_ne (hother l hl)) hread⟩

theorem get?_of_not_script (hcopies : c.copies = scripts.mapIdx fun n s => ⟨scriptTarget n, s⟩)
    (hs : Staged (join out stagingDirectory) c.copies (prepared c out h) h₁)
    (hw : h₁.writable (composePath out) = .ok place) (hp : Host.Wrote place content h₁ h')
    (hscripts : ∀ n, n < scripts.length → h'.place? (scriptPath out n) ≠ some l)
    (hplace : l ≠ place) : h'.files.get? l = (prepared c out h).files.get? l := by
  have hd : SameDirectories (prepared c out h) h' :=
    hs.sameDirectories.trans (hp.sameDirectories hw)
  rw [hp.get?_of_ne hplace]
  refine hs.others l fun item hitem hl => ?_
  obtain ⟨n, hn, rfl⟩ := (mem_copies_iff hcopies).mp hitem
  rw [stagedPath_script, ← hd.place?_eq] at hl
  exact hscripts n hn hl

/-- The compose file does not stand where the directory for scripts would. -/
theorem place_ne_of_stagingDirectory (hw : h₁.writable (composePath out) = .ok place)
    (hl : h₁.place? (join out stagingDirectory) = some l) : l ≠ place := by
  intro e
  have hsame : h₁.SamePlace (join out stagingDirectory) (composePath out) :=
    ⟨place, e ▸ hl, Host.place?_of_writable hw⟩
  exact absurd (Host.eq_of_samePlace_join isName_stagingDirectory isName_fileName hsame) (by decide)

end

/-- Whatever calls made an image and whatever machine it is converted on: if the conversion succeeds
and no script is read from where one goes, it leaves the scripts and the compose file behind and
nothing else. -/
theorem convert_image {k : ImageKind} {cs : List BuilderCall} {i : Image} {service out path : String}
    {h h' : Host} (hbuild : (k.image .default).calls cs = .ok i)
    (hrun : (convert i.contract service out).on h = (.ok path, h'))
    (hapart : ∀ r, .reference r ∈ (Outline.ofCalls cs).sources →
      ∀ n, n < (Outline.ofCalls cs).sources.length →
        ¬ (prepared i.contract out h).SamePlace r.text (scriptPath out n)) :
    path = composePath out ∧
      Converted i.contract service out (Outline.ofCalls cs).sources h h' := by
  have hcopies := Image.copies_of_calls hbuild
  generalize (Outline.ofCalls cs).sources = scripts at hcopies hapart
  generalize i.contract = c at hcopies hrun hapart
  obtain ⟨mounts, h₁, place, text, hstage, hw, htext, hp, rfl⟩ := on_convert_eq_ok hrun
  obtain ⟨rfl, hs⟩ := staged_stageItems (apart_of_scripts hcopies hapart) hstage
  rw [map_mountOf_scripts hcopies] at htext
  have hadds := addsDirectories_prepared c out h
  have hd₁ := hp.sameDirectories hw
  have hd : SameDirectories (prepared c out h) h' := hs.sameDirectories.trans hd₁
  have hplace : h'.place? (composePath out) = some place := by
    rw [hd₁.place?_eq, Host.place?_of_writable hw]
  refine ⟨rfl, ?_, ?_, ?_, ?_, ?_⟩
  · exact fun n hn => read_scriptPath hcopies hs hw hp hn
  · exact ⟨text, htext, Host.read_of_writable hw hd₁ (hp.get?_self hw)⟩
  · intro l hscripts hcompose
    have hne : l ≠ place := fun e => hcompose (e ▸ hplace)
    rw [get?_of_not_script hcopies hs hw hp hscripts hne]
    exact (hadds.files l).imp_right fun ⟨hnone, hdir, _⟩ => ⟨hnone, hdir⟩
  · intro e l hl
    subst e
    rw [hd.directory] at hl
    rwa [prepared_of_copies_nil _ _ hcopies] at hl
  · intro e habove l hl hnone
    subst e
    have hne : l ≠ place := place_ne_of_stagingDirectory hw (by rw [← hd₁.place?_eq, hl])
    rw [get?_of_not_script hcopies hs hw hp (fun n hn => absurd hn (Nat.not_lt_zero n)) hne,
      prepared_of_copies_nil _ _ hcopies]
    rw [hd.place?_eq, prepared_of_copies_nil _ _ hcopies] at hl
    exact ensureDirectories_not_inside isName_stagingDirectory habove hl hnone

/-- One script given as text and one read from a file beside the output directory. -/
theorem convert_image_of_two_scripts :
    let h : Host :=
      { files := ⟨[(["tmp"], .directory), (["tmp", "work"], .directory),
          (["tmp", "work", "seed.sql"], .file "SELECT 2;".toUTF8)]⟩
        workingDirectory := ["tmp", "work"]
        environment := []
        log := [] }
    let cs : List BuilderCall :=
      [.initSql (.text "SELECT 1;"), .fsyncEnabled, .initSql (.path (.ofText "seed.sql"))]
    ∃ i h', (ImageKind.postgis.image .default).calls cs = .ok i ∧
      (convert i.contract "db" "out").on h = (.ok "out/docker-compose.yml", h') ∧
      Converted i.contract "db" "out" (Outline.ofCalls cs).sources h h' := by
  intro h cs
  let i : Image := .postgis ⟨Postgres.defaultEnv,
    [⟨scriptTarget 0, .inline "SELECT 1;".toUTF8⟩,
      ⟨scriptTarget 1, .reference (.ofText "seed.sql")⟩], true⟩
  have hbuild : (ImageKind.postgis.image .default).calls cs = .ok i := rfl
  have hrun : (convert i.contract "db" "out").on h = (.ok "out/docker-compose.yml", _) :=
    Files.Action.on_eq_of_toOption (by decide +kernel)
  have hseed : (prepared i.contract "out" h).place? (Files.Reference.ofText "seed.sql").text =
      some ["tmp", "work", "seed.sql"] := by decide +kernel
  refine ⟨i, _, hbuild, hrun, (convert_image hbuild hrun fun r hr n _ hsame => ?_).2⟩
  obtain rfl : r = .ofText "seed.sql" := by
    simpa [Outline.ofCalls, cs, Source.ofValue, Except.toOption] using hr
  obtain ⟨l, hl, hscript⟩ := hsame
  rw [hseed, Option.some.injEq] at hl
  obtain ⟨here, -, he⟩ := Host.place?_join (Postgres.isName_scriptName n) hscript
  have hname : some "seed.sql" = some (scriptName n) := by
    have hlast := congrArg List.getLast? (hl.trans he)
    rwa [List.getLast?_append] at hlast
  have hi := Postgres.head?_scriptName n
  rw [← Option.some.inj hname] at hi
  revert hi
  decide

/-- An output directory that is reached over the directory for scripts and a step upwards: without any
script, the conversion makes that directory. -/
theorem stagingDirectory_made_without_scripts :
    let h : Host :=
      { files := ⟨[(["tmp"], .directory), (["tmp", "work"], .directory)]⟩
        workingDirectory := ["tmp", "work"]
        environment := []
        log := [] }
    ∃ (i : Image) (path : String) (h' : Host),
      (ImageKind.postgres.image .default).calls [] = .ok i ∧ i.contract.copies = [] ∧
      (convert i.contract "db" "initdb/..").on h = (.ok path, h') ∧
      ∃ l, h'.place? (join "initdb/.." stagingDirectory) = some l ∧
        h.files.get? l = none ∧ h'.files.get? l = some .directory := by
  intro h
  have hrun : (convert (Postgres.default : Postgres).contract "db" "initdb/..").on h =
      (.ok "initdb/../docker-compose.yml", _) :=
    Files.Action.on_eq_of_toOption (by decide +kernel)
  refine ⟨.postgres .default, _, _, rfl, rfl, hrun, ["tmp", "work", "initdb"], ?_, ?_, ?_⟩
  · decide +kernel
  · decide
  · decide +kernel

end Compose
end DbImage
