import DbImage.Proofs.Compose.Convert
import DbImage.Proofs.Compose.Turns

/-!
# What a mount holds

A staged file has the name of the last step of its target, so two targets that end alike share one
file, and the later item overwrites the earlier one.  A mount therefore holds what the last item of
its name was given, and `mounts_hold_own_content_iff` says when that is what its own item was given.
-/

namespace DbImage

open Files (Host IsName Tree baseName join steps)

namespace Compose

/-- The content of the file that a mount names, as it is read from within the output directory. -/
def Mount.content? (m : Mount) (out : String) (h : Host) : Option ByteArray :=
  match h.files.walk (h.start out) (steps out) with
  | .ok here => (Host.read { h with workingDirectory := here } m.host).toOption
  | .error _ => none

/-- An item whose content is given at once. -/
def inlineItem (f : String × ByteArray) : StagedItem := ⟨f.1, .inline f.2⟩

/-- What the last of the given files with this name holds. -/
def lastNamed (name : String) (files : List (String × ByteArray)) : Option ByteArray :=
  (files.reverse.find? fun f => baseName f.1 = name).map (·.2)

variable {c : Contract} {out : String} {h h' : Host} {item : StagedItem} {bytes : ByteArray}
  {files : List (String × ByteArray)} {mounts : List Mount}

/-! ## From the output directory -/

theorem host_mountOf (hname : IsName (baseName item.target)) :
    (mountOf item).host = join "./initdb" (baseName item.target) := by
  rcases Files.join_of_relative "./initdb" hname.startsAtRoot with ⟨-, hb⟩ | hj
  · exact absurd hb (by decide)
  · rw [hj]
    rfl

theorem walk_mountDirectory
    (hdir : h.files.get? (h.workingDirectory ++ [stagingDirectory]) = some .directory) :
    h.files.walk (h.start "./initdb") (steps "./initdb") =
      .ok (h.workingDirectory ++ [stagingDirectory]) := by
  have hsteps : steps "./initdb" = [".", stagingDirectory] := by decide
  have hstart : h.start "./initdb" = h.workingDirectory := rfl
  have hhere : h.files.enter h.workingDirectory "." = .ok h.workingDirectory := rfl
  have hinto := Tree.enter_of_get? (by decide) (by decide) (by decide) hdir
  rw [hsteps, hstart, Tree.walk_cons_of_enter hhere, Tree.walk_cons_of_enter hinto]
  rfl

/-- A mount's path is short enough for a path wherever the output directory lies. -/
theorem locate_host_mountOf (hname : IsName (baseName item.target))
    (hsize : (baseName item.target).utf8ByteSize ≤ Files.nameLimit)
    (hdir : h.files.get? (h.workingDirectory ++ [stagingDirectory]) = some .directory) :
    h.locate (mountOf item).host =
      .ok (.child (h.workingDirectory ++ [stagingDirectory]) (baseName item.target) false) := by
  have hlong : (mountOf item).host.utf8ByteSize = 9 + (baseName item.target).utf8ByteSize := by
    rw [mountOf, String.utf8ByteSize_append]
    rfl
  have hlimits : Files.nameLimit = 255 ∧ Files.pathLimit = 4095 := ⟨rfl, rfl⟩
  rw [host_mountOf hname] at hlong ⊢
  exact Host.locate_join hname (walk_mountDirectory hdir) (by omega)

/-- What is read where an item was staged is read through its mount from the output directory. -/
theorem content?_mountOf (hname : IsName (baseName item.target))
    (hread : h.read (stagedPath (join out stagingDirectory) item) = .ok bytes) :
    (mountOf item).content? out h = some bytes := by
  obtain ⟨hnul, hstatus⟩ := Host.read_eq_ok_iff.mp hread
  obtain ⟨here, last, hl, hsize, hget⟩ := Host.status_eq_file_iff.mp hstatus
  obtain ⟨top, hwalk, hdir, he⟩ := Host.place?_join_join (l := here ++ [last])
    isName_stagingDirectory hname (by rw [← stagedPath, Host.place?, hl])
  have hplace : here ++ [last] = (top ++ [stagingDirectory]) ++ [baseName item.target] := by
    rw [he, List.append_assoc]
    rfl
  obtain rfl : last = baseName item.target := by
    simpa using (List.append_inj' hplace rfl).2
  have hnul' : Host.holdsNul (mountOf item).host = false := by
    rw [mountOf, Host.holdsNul_append, Host.holdsNul_of_join hname.slash_not_mem hnul]
    rfl
  have hinside : Host.read { h with workingDirectory := top } (mountOf item).host = .ok bytes := by
    refine Host.read_eq_ok_iff.mpr ⟨hnul', Host.status_eq_file_iff.mpr
      ⟨top ++ [stagingDirectory], baseName item.target, ?_, hsize, ?_⟩⟩
    · exact locate_host_mountOf (h := { h with workingDirectory := top }) hname hsize hdir
    · rw [hplace] at hget
      exact hget
  rw [Mount.content?, hwalk]
  dsimp only
  rw [hinside]
  rfl

/-! ## Items of one name -/

theorem exists_lastNamed {f : String × ByteArray} (hf : f ∈ files) :
    ∃ before last after, files = before ++ last :: after ∧ baseName last.1 = baseName f.1 ∧
      (∀ g ∈ after, baseName g.1 ≠ baseName f.1) ∧
      lastNamed (baseName f.1) files = some last.2 := by
  cases hlast : files.reverse.find? fun g => baseName g.1 = baseName f.1 with
  | none =>
    exact absurd (decide_eq_true rfl) (List.find?_eq_none.mp hlast f (List.mem_reverse.mpr hf))
  | some last =>
    obtain ⟨hname, after, before, hsplit, hafter⟩ := List.find?_eq_some_iff_append.mp hlast
    refine ⟨before.reverse, last, after.reverse, ?_, of_decide_eq_true hname, fun g hg => ?_, ?_⟩
    · rw [← List.reverse_reverse files, hsplit]
      simp
    · simpa using hafter g (List.mem_reverse.mp hg)
    · rw [lastNamed, hlast]
      rfl

/-- The mount of a staged item holds what the last item of its name was given. -/
theorem content?_of_stageItems {f : String × ByteArray} (hf : f ∈ files)
    (hrun : (stageItems (join out stagingDirectory) (files.map inlineItem)).on h =
      (.ok mounts, h')) :
    (mountOf (inlineItem f)).content? out h' = lastNamed (baseName f.1) files := by
  have hisName : IsName (baseName (inlineItem f).target) :=
    isName_of_stageItems hrun (List.mem_map_of_mem hf)
  obtain ⟨before, last, after, hsplit, hname, hafter, hlast⟩ := exists_lastNamed hf
  rw [hlast]
  rw [hsplit, List.map_append, List.map_cons] at hrun
  obtain ⟨place, content, h₁, hturn⟩ := exists_turn hrun
  obtain rfl : last.2 = content := by simpa [inlineItem, Source.content_inline] using hturn.read
  have hlater : ∀ item ∈ after.map inlineItem, baseName item.target ≠ baseName last.1 := by
    intro item hitem
    obtain ⟨g, hg, rfl⟩ := List.mem_map.mp hitem
    exact hname ▸ hafter g hg
  have hread := hturn.read_eq (not_isDestination_of_name hturn.isName hturn.place?_eq hlater)
  have hpath : stagedPath (join out stagingDirectory) (inlineItem f) =
      stagedPath (join out stagingDirectory) (inlineItem last) :=
    congrArg (join (join out stagingDirectory)) hname.symm
  refine content?_mountOf hisName ?_
  rw [hpath]
  exact hread

/-- Whatever items with content of their own are staged, each gets a mount for its target, and the
mount holds what the last item of the same name was given.  So all mounts hold what their items were
given exactly if items of the same name were given the same. -/
theorem mounts_hold_own_content_iff (hcopies : c.copies = files.map inlineItem)
    (hrun : (stage c out).on h = (.ok mounts, h')) :
    mounts.map (·.target) = files.map (·.1) ∧
    mounts.map (·.content? out h') = files.map (fun f => lastNamed (baseName f.1) files) ∧
    (mounts.map (·.content? out h') = files.map (fun f => some f.2) ↔
      ∀ f ∈ files, ∀ g ∈ files, baseName f.1 = baseName g.1 → f.2 = g.2) := by
  have hitems := on_stage_eq_ok hrun
  have hmounts := mounts_of_stageItems hitems
  rw [hcopies] at hitems hmounts
  have hlast : mounts.map (·.content? out h') = files.map fun f => lastNamed (baseName f.1) files := by
    rw [hmounts, List.map_map, List.map_map]
    exact List.map_congr_left fun f hf => content?_of_stageItems hf hitems
  refine ⟨?_, hlast, ?_⟩
  · rw [hmounts, List.map_map, List.map_map]
    rfl
  rw [hlast, List.map_inj_left]
  constructor
  · intro hown f hf g hg hname
    have hsame := hown g hg
    rw [← hname, hown f hf] at hsame
    exact Option.some.inj hsame
  · intro hsame f hf
    obtain ⟨before, last, after, hsplit, hname, -, hlast⟩ := exists_lastNamed hf
    rw [hlast, hsame last (hsplit ▸ by simp) f hf hname]

/-- Two targets that end alike with one content, and a third. -/
theorem mounts_hold_own_content_iff_of_one_content :
    let files := [("/a/x.sql", "SELECT 1;".toUTF8), ("/b/y.sql", "SELECT 2;".toUTF8),
      ("/c/x.sql", "SELECT 1;".toUTF8)]
    let c : Contract := ⟨"db", "1", [], [], files.map inlineItem, []⟩
    let h : Host := ⟨⟨[(["tmp"], .directory), (["tmp", "work"], .directory)]⟩, ["tmp", "work"], [], []⟩
    c.copies = files.map inlineItem ∧ ∃ mounts h', (stage c "out").on h = (.ok mounts, h') ∧
      mounts.map (·.content? "out" h') = files.map fun f => some f.2 := by
  intro files c h
  have hrun : (stage c "out").on h = (.ok (c.copies.map mountOf), _) :=
    Files.Action.on_eq_of_toOption (by decide +kernel)
  exact ⟨rfl, _, _, hrun, (mounts_hold_own_content_iff rfl hrun).2.2.mpr (by decide)⟩

/-- Two targets that end alike: both mounts hold what the second item was given. -/
theorem first_mount_holds_other_content :
    let c : Contract := ⟨"db", "1", [], [],
      [⟨"/a/x.sql", .inline "one".toUTF8⟩, ⟨"/b/x.sql", .inline "two".toUTF8⟩], []⟩
    let h : Host := ⟨⟨[(["tmp"], .directory), (["tmp", "work"], .directory)]⟩, ["tmp", "work"], [], []⟩
    ∃ h', (stage c "out").on h =
        (.ok [⟨"./initdb/x.sql", "/a/x.sql"⟩, ⟨"./initdb/x.sql", "/b/x.sql"⟩], h') ∧
      Mount.content? ⟨"./initdb/x.sql", "/a/x.sql"⟩ "out" h' = some "two".toUTF8 ∧
      "two".toUTF8 ≠ "one".toUTF8 := by
  intro c h
  have hrun : (stage c "out").on h =
      (.ok [⟨"./initdb/x.sql", "/a/x.sql"⟩, ⟨"./initdb/x.sql", "/b/x.sql"⟩], _) :=
    Files.Action.on_eq_of_toOption (by decide +kernel)
  exact ⟨_, hrun, by decide +kernel, by decide⟩

end Compose
end DbImage
