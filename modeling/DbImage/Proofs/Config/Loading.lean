import DbImage.Proofs.Config.Chains
import DbImage.Proofs.Config.Unreadable
import DbImage.Proofs.Files.Lexical
import Mathlib.Data.List.Forall2

/-!
# Loading

The scripts of a configuration file are seen from the directory of the file, and that is named by its
path from the root.  So what is staged does not depend on the working directory any more once the file
is loaded: `load_references`.
-/

namespace DbImage

open Files (Action Host IsName Location Reference Root join looseSteps resolve startsAtRoot steps)

namespace Files

/-! ## Paths from the root -/

namespace Host

/-- The working directory as a path from the root. -/
def workingPath (h : Host) : String := "/" ++ "/".intercalate h.workingDirectory

/-- The directory of a file, by the path of the file from the root: the working directory and the path,
`.` and `..` removed by the text alone, and the last step dropped. -/
def directoryOfFile (h : Host) (path : String) : Reference :=
  let joined := join h.workingPath path
  ⟨Root.of joined, (resolve [] (steps joined)).dropLast⟩

variable {h : Host} {path : String}

theorem startsAtRoot_workingPath (h : Host) : startsAtRoot h.workingPath = true := by
  rw [workingPath, startsAtRoot, String.toList_append]
  rfl

theorem steps_workingPath (hnames : ∀ name ∈ h.workingDirectory, IsName name) :
    steps h.workingPath = h.workingDirectory := by
  rw [workingPath, steps_slash_append]
  apply steps_intercalate
  exact fun name hname => ⟨(hnames name hname).ne_empty, (hnames name hname).slash_not_mem⟩

theorem startsAtRoot_join_workingPath (h : Host) (path : String) :
    startsAtRoot (join h.workingPath path) = true := by
  cases hpath : startsAtRoot path with
  | true => rwa [join, if_pos hpath]
  | false => rw [startsAtRoot_join_of_relative _ hpath, startsAtRoot_workingPath]

theorem root_directoryOfFile (h : Host) (path : String) :
    (h.directoryOfFile path).root ≠ .relative := by
  intro hroot
  have hfalse := root_of_eq_relative_iff.mp hroot
  rw [startsAtRoot_join_workingPath] at hfalse
  cases hfalse

theorem isNormal_directoryOfFile (h : Host) (path : String) :
    (h.directoryOfFile path).IsNormal := fun step hstep =>
  isNormal_resolve .single _ step (List.dropLast_subset _ hstep)

theorem above_not_mem_directoryOfFile (h : Host) (path : String) :
    ".." ∉ (h.directoryOfFile path).steps := by
  intro hmem
  rcases mem_resolve (List.dropLast_subset _ hmem) with hnone | ⟨-, -, hne⟩
  · cases hnone
  · exact hne rfl

/-- From the root, the steps lead where they lead from the start of the path. -/
theorem resolve_steps_join_workingPath (hnames : ∀ name ∈ h.workingDirectory, IsName name) :
    resolve [] (steps (join h.workingPath path)) = resolve (h.start path) (steps path) := by
  rw [start]
  cases hpath : startsAtRoot path with
  | true => rw [join, if_pos hpath, if_pos rfl]
  | false =>
    have hwd : resolve [] h.workingDirectory = h.workingDirectory :=
      resolve_of_names fun name hname => ⟨(hnames name hname).ne_here, (hnames name hname).ne_above⟩
    rw [steps_join_of_relative _ hpath, steps_workingPath hnames, resolve_append, hwd]
    rfl

/-- A file that can be read lies in this directory. -/
theorem exists_place?_of_read (hnames : ∀ name ∈ h.workingDirectory, IsName name)
    {bytes : ByteArray} (hread : h.read path = .ok bytes) :
    ∃ name, h.place? path = some ((h.directoryOfFile path).steps ++ [name]) := by
  obtain ⟨-, hstatus⟩ := read_eq_ok_iff.mp hread
  obtain ⟨here, name, hlocate, -⟩ := status_eq_file_iff.mp hstatus
  obtain ⟨hlast, hwalk, hdot, habove, -⟩ := locate_eq_child hlocate
  obtain ⟨front, hsteps⟩ := List.getLast?_eq_some_iff.mp hlast
  rw [hsteps, List.dropLast_concat] at hwalk
  have hname : resolve here [name] = here ++ [name] :=
    resolve_of_names fun s hs => List.mem_singleton.mp hs ▸ ⟨hdot, habove⟩
  have hdir : (h.directoryOfFile path).steps = here := by
    show (resolve [] (steps (join h.workingPath path))).dropLast = here
    rw [resolve_steps_join_workingPath hnames, hsteps, resolve_append, ← Tree.eq_resolve_of_walk hwalk,
      hname, List.dropLast_concat]
  exact ⟨name, by rw [place?, hlocate, hdir]⟩

/-- A path from the root is read in the same way from every working directory. -/
theorem read_of_startsAtRoot (hroot : startsAtRoot path = true) (wd : Location) :
    ({ h with workingDirectory := wd } : Host).read path = h.read path := by
  simp only [read, status, locate, hroot, if_true]

end Host

theorem Reference.startsAtRoot_text {r : Reference} (hroot : r.root ≠ .relative) :
    startsAtRoot r.text = true := by
  obtain ⟨root, ss⟩ := r
  rw [Reference.text_of_root hroot, startsAtRoot, String.toList_append]
  cases root with
  | relative => exact absurd rfl hroot
  | single => simp [Root.text]
  | double => simp [Root.text]

end Files

/-! ## What the scripts are staged from -/

/-- The scripts of a configuration whose file lies in `dir`: an inline script is staged as it is, a path
from the root in normal form, and any other path behind the steps of the directory. -/
inductive StagedFrom (dir : Reference) : Script → Source LooseText → Prop
  | inline (text : String) : StagedFrom dir (.inline text) (.inline text.toUTF8)
  | fromRoot {e : LooseText} : e.points.head? = some (.char '/') →
      StagedFrom dir (.path e) (.reference ⟨Root.ofLoose e, (looseSteps e).filter (· ≠ ".")⟩)
  | below {e : LooseText} : e.points.head? ≠ some (.char '/') →
      StagedFrom dir (.path e) (.reference ⟨dir.root,
        dir.steps.map LooseText.ofString ++ (looseSteps e).filter fun step : LooseText => step ≠ "."⟩)

theorem stagedFrom_of_source? {dir : Reference} {s : Script} {source : Source LooseText}
    (h : s.source? (dir.map LooseText.ofString) = some source) : StagedFrom dir s source := by
  cases s with
  | inline text =>
    obtain ⟨s, hs, rfl⟩ := Option.map_eq_some_iff.mp h
    rw [LooseText.toString?_eq_some_iff] at hs
    exact hs ▸ .inline s
  | path e =>
    obtain rfl := Option.some.inj h
    by_cases he : e.points.head? = some (.char '/')
    · have hroot : (Reference.ofLoose e).root ≠ .relative := fun hroot =>
        Root.ofLoose_eq_relative_iff.mp hroot he
      rw [Reference.under_of_absolute hroot]
      exact .fromRoot he
    · have hroot : (Reference.ofLoose e).root = .relative := Root.ofLoose_eq_relative_iff.mpr he
      rw [Reference.under, if_pos hroot]
      exact .below he

theorem StagedFrom.isLooseNormal {dir : Reference} {s : Script} {r : Reference LooseText}
    (h : StagedFrom dir s (.reference r)) (hroot : dir.root ≠ .relative) (hdir : dir.IsNormal) :
    r.root ≠ .relative ∧ r.IsLooseNormal := by
  cases h with
  | fromRoot he =>
    exact ⟨fun hroot => Root.ofLoose_eq_relative_iff.mp hroot he,
      Reference.isLooseNormal_ofLoose _⟩
  | below he =>
    refine ⟨hroot, fun step hstep => ?_⟩
    rcases List.mem_append.mp hstep with hstep | hstep
    · obtain ⟨name, hname, rfl⟩ := List.mem_map.mp hstep
      exact hdir.looseText name hname
    · exact Reference.isLooseNormal_ofLoose _ step hstep

/-- What is staged from the root holds the same, whatever the working directory is. -/
theorem Source.content_of_root {s : Source LooseText}
    (hs : ∀ r, s = .reference r → r.root ≠ .relative) (h : Host) (wd : Location) :
    s.content { h with workingDirectory := wd } = s.content h := by
  cases s with
  | inline bytes => rfl
  | reference r =>
    rw [content, content]
    cases hr : r.toString? with
    | none => rfl
    | some path =>
      have hroot : path.root ≠ .relative := Files.Reference.root_of_toString? hr ▸ hs r rfl
      dsimp only
      rw [fileContent, fileContent,
        Host.read_of_startsAtRoot (Files.Reference.startsAtRoot_text hroot) wd]

namespace ImageConfig

theorem ofLoose_directoryOf (h : Host) (path : String) :
    Reference.ofLoose (directoryOf h path) = (h.directoryOfFile path).map LooseText.ofString := by
  rw [Reference.ofLoose_ofString]
  exact congrArg _ (Files.ofText_dirName_absolute (h.root_directoryOfFile path))

/-- Loading is reading the configuration and building its image. -/
theorem load_eq_ok {path : String} {bindings : Bindings} {h h' : Host} {i : Image LooseText}
    (hload : (load path bindings).on h = (.ok i, h')) :
    ∃ c bytes, (ofFile path bindings).on h = (.ok c, h') ∧ h.read path = .ok bytes ∧
      c.build (directoryOf h path) = .ok i := by
  obtain ⟨c, h₁, hfile, hbuild⟩ := Action.on_bind_eq_ok.mp hload
  rw [Action.on_bind, Action.on_get] at hbuild
  dsimp only at hbuild
  rw [Action.on_ofExcept] at hbuild
  obtain ⟨hbuilt, rfl⟩ := Prod.mk.inj hbuild
  have hfile' := hfile
  rw [on_ofFile] at hfile'
  cases htext : outcomeOfText h path with
  | error f =>
    rw [htext] at hfile'
    cases hfile'
  | ok text =>
    rw [htext] at hfile'
    obtain ⟨s, hread, -⟩ := outcomeOfText_eq_ok_iff.mp htext
    obtain ⟨-, rfl⟩ := Prod.mk.inj hfile'
    exact ⟨c, _, hfile, hread, hbuilt⟩

/-- Whatever path a configuration was loaded from: its image stages the scripts in their order, the
inline ones as they are and the others from where they are seen from the directory of the file, as
normal paths from the root that no working directory has a part in. The directory is named without
`..`, and the file lies in it. -/
theorem load_references {path : String} {bindings : Bindings} {h h' : Host} {i : Image LooseText}
    (hload : (load path bindings).on h = (.ok i, h')) :
    ∃ c sources, (ofFile path bindings).on h = (.ok c, h') ∧
      i.contract.copies = sources.mapIdx (fun n s => ⟨Postgres.scriptTarget n, s⟩) ∧
      List.Forall₂ (StagedFrom (h.directoryOfFile path)) c.scripts sources ∧
      (∀ r, .reference r ∈ sources → r.root ≠ .relative ∧ r.IsLooseNormal) ∧
      (∀ s ∈ sources, ∀ (k : Host) wd, s.content { k with workingDirectory := wd } = s.content k) ∧
      ".." ∉ (h.directoryOfFile path).steps ∧
      ((∀ name ∈ h.workingDirectory, IsName name) →
        ∃ name, h.place? path = some ((h.directoryOfFile path).steps ++ [name])) := by
  obtain ⟨c, bytes, hfile, hread, hbuild⟩ := load_eq_ok hload
  have hcopies := copies_of_build hbuild
  have hsources := map_some_filterMap_source? (.ofLoose (directoryOf h path)) (known_of_build hbuild).2
  rw [ofLoose_directoryOf] at hcopies hsources
  have hstaged : List.Forall₂ (StagedFrom (h.directoryOfFile path)) c.scripts
      (c.scripts.filterMap (·.source? ((h.directoryOfFile path).map LooseText.ofString))) := by
    have heq := List.forall₂_eq_eq_eq.symm ▸ hsources.symm
    rw [List.forall₂_map_left_iff, List.forall₂_map_right_iff] at heq
    exact heq.imp fun _ _ => stagedFrom_of_source?
  have hroot : ∀ r, .reference r ∈ c.scripts.filterMap
      (·.source? ((h.directoryOfFile path).map LooseText.ofString)) →
      r.root ≠ .relative ∧ r.IsLooseNormal := by
    intro r hr
    obtain ⟨s, -, hs⟩ := List.mem_filterMap.mp hr
    exact (stagedFrom_of_source? hs).isLooseNormal (h.root_directoryOfFile path)
      (h.isNormal_directoryOfFile path)
  refine ⟨c, _, hfile, hcopies, hstaged, hroot, fun s hs k wd => ?_,
    h.above_not_mem_directoryOfFile path, fun hnames => Host.exists_place?_of_read hnames hread⟩
  exact Source.content_of_root (fun r hr => (hroot r (hr ▸ hs)).1) k wd

/-- A path with `..` and repeated slashes, and scripts of each kind. -/
theorem load_references_of_each_kind :
    let h : Host :=
      { files := ⟨[(["tmp"], .directory), (["tmp", "conf"], .directory),
          (["tmp", "conf", "db.yml"], .file
            "init_sql:\n- path: //srv/./a\n- inline: SELECT 1;\n- path: ../b".toUTF8)]⟩
        workingDirectory := ["tmp"]
        environment := []
        log := [] }
    let path := "conf/../conf//db.yml"
    ∃ i h', (load path []).on h = (.ok i, h') ∧
      i.contract.copies.map (·.source) = [.reference ⟨.double, ["srv", "a"]⟩,
        .inline "SELECT 1;".toUTF8, .reference ⟨.single, ["tmp", "conf", "..", "b"]⟩] ∧
      ∃ name, h.place? path = some ((h.directoryOfFile path).steps ++ [name]) := by
  intro h path
  let i : Image LooseText := .postgis ⟨Postgres.defaultEnv,
    [⟨Postgres.scriptTarget 0, .reference ⟨.double, ["srv", "a"]⟩⟩,
      ⟨Postgres.scriptTarget 1, .inline "SELECT 1;".toUTF8⟩,
      ⟨Postgres.scriptTarget 2, .reference ⟨.single, ["tmp", "conf", "..", "b"]⟩⟩], false⟩
  have hload : (load path []).on h = (.ok i, _) := Action.on_eq_of_toOption (by decide +kernel)
  obtain ⟨c, sources, -, -, -, -, -, -, hplace⟩ := load_references hload
  have hnames : ∀ name ∈ h.workingDirectory, IsName name := by
    intro name hname
    rw [List.mem_singleton.mp hname]
    exact ⟨by decide, by decide, by decide, by decide⟩
  exact ⟨i, _, hload, rfl, hplace hnames⟩

end ImageConfig
end DbImage
