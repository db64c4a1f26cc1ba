import DbImage.Proofs.Compose.Mounts
import DbImage.Proofs.Compose.References

/-!
# Staging that stops

Staging stops at the first item whose file cannot be opened or whose source cannot be read, and the
items before it have been staged by then: `on_stageItems_eq_error`.  An item's file is opened, which
empties it, before the source is read.  So an item that stops staging because of its source leaves an
empty file, whatever was there before: `stagedFile_kept_iff`.
-/

namespace DbImage

open Files (Action Host Location Reference Refusal Tree join)

namespace Source

theorem content_eq_unreadable_iff {s : Source} {h : Host} {r : Reference} {refusal : Refusal} :
    s.content h = .error (.unreadableSource r refusal) ↔
      s = .reference r ∧ h.read r.text = .error (.refused refusal) := by
  cases s with
  | inline bytes => simp [content_inline]
  | reference path =>
    rw [reference.injEq, content_reference, fileContent]
    constructor
    · intro hc
      cases hr : h.read path.text with
      | ok bytes => simp [hr] at hc
      | error fault =>
        cases fault with
        | nulInPath => simp [hr] at hc
        | refused refusal' =>
          obtain ⟨rfl, rfl⟩ : path = r ∧ refusal' = refusal := by simpa [hr] using hc
          exact ⟨rfl, hr⟩
    · rintro ⟨rfl, hr⟩
      rw [hr]

end Source

namespace Compose

variable {directory : String} {item : StagedItem} {items before after : List StagedItem}
  {mounts : List Mount} {e : Failure} {h h₁ h' : Host} {place : Location}

/-! ## The item that fails -/

theorem stageItems_append (directory : String) (before after : List StagedItem) :
    stageItems directory (before ++ after) = do
      let mounts ← stageItems directory before
      return mounts ++ (← stageItems directory after) := by
  induction before with
  | nil => simp [stageItems]
  | cons item before ih => simp [stageItems, ih]

/-- Staging stops at one item, once those before it are staged. -/
theorem on_stageItems_eq_error :
    (stageItems directory items).on h = (.error e, h') ↔
      ∃ before item after h₁, items = before ++ item :: after ∧
        (stageItems directory before).on h = (.ok (before.map mountOf), h₁) ∧
        (stageItem directory item).on h₁ = (.error e, h') := by
  constructor
  · intro hrun
    induction items generalizing h with
    | nil => cases hrun
    | cons item rest ih =>
      rw [stageItems, Action.on_bind_eq_error] at hrun
      rcases hrun with hitem | ⟨mount, h₁, hitem, hrun⟩
      · exact ⟨[], item, rest, h, rfl, rfl, hitem⟩
      rcases Action.on_bind_eq_error.mp hrun with hrest | ⟨mounts, h₂, -, hrun⟩
      · obtain ⟨before, last, after, h₂, rfl, hbefore, hlast⟩ := ih hrest
        obtain ⟨-, -, -, -, -, rfl⟩ := on_stageItem_eq_ok hitem
        refine ⟨item :: before, last, after, h₂, rfl, ?_, hlast⟩
        rw [stageItems, Action.on_bind_eq_ok]
        exact ⟨_, h₁, hitem, Action.on_bind_eq_ok.mpr ⟨_, h₂, hbefore, rfl⟩⟩
      · cases hrun
  · rintro ⟨before, item, after, h₁, rfl, hbefore, hitem⟩
    rw [stageItems_append, Action.on_bind_eq_error]
    refine Or.inr ⟨_, h₁, hbefore, Action.on_bind_eq_error.mpr (Or.inl ?_)⟩
    rw [stageItems, Action.on_bind_eq_error]
    exact Or.inl hitem

/-! ## A source that cannot be read -/

/-- Staging stops at an item because of its source: the items before it are staged, which leads to the
machine `h₁`, its own file is opened, and then its source cannot be read. -/
structure StopsAt (directory : String) (before : List StagedItem) (item : StagedItem)
    (place : Location) (e : Failure) (h h₁ h' : Host) : Prop where
  before : (stageItems directory before).on h = (.ok (before.map mountOf), h₁)
  writable : h₁.writable (stagedPath directory item) = .ok place
  unreadable : item.source.content (h₁.put place (.file .empty)) = .error e
  emptied : Host.Wrote place .empty h₁ h'

variable {c : Contract} {out : String} {r : Reference} {refusal : Refusal}

theorem unreadableSource_ne_ofFault (fault : Files.Fault) :
    Failure.unreadableSource r refusal ≠ .ofFault fault := by
  cases fault <;> exact fun h => (nomatch h)

theorem on_ensureDirectories_ne_unreadable {path : String} :
    (Action.ensureDirectories path).on h ≠ (.error (.unreadableSource r refusal), h') := by
  intro hrun
  obtain ⟨fault, he⟩ := Action.failsWithFault_ensureDirectoriesWithin _ _ _ _ _ hrun
  exact unreadableSource_ne_ofFault fault he

theorem exists_stopsAt
    (hrun : (stageItems directory items).on h = (.error (.unreadableSource r refusal), h')) :
    ∃ before item after place h₁, items = before ++ item :: after ∧ item.source = .reference r ∧
      StopsAt directory before item place (.unreadableSource r refusal) h h₁ h' := by
  obtain ⟨before, item, after, h₁, rfl, hbefore, hitem⟩ := on_stageItems_eq_error.mp hrun
  rcases on_stageItem_eq_error hitem with ⟨fault, -, he, -⟩ | ⟨place, hw, hc, hp⟩
  · exact absurd he (unreadableSource_ne_ofFault fault)
  · exact ⟨before, item, after, place, h₁, rfl, (Source.content_eq_unreadable_iff.mp hc).1,
      hbefore, hw, hc, hp⟩

/-- A source that cannot be read is met once the directory for staged files is made. -/
theorem on_stage_eq_unreadable :
    (stage c out).on h = (.error (.unreadableSource r refusal), h') ↔
      (Action.ensureDirectories (join out stagingDirectory)).on h =
          (.ok (), withStagingDirectory out h) ∧
        (stageItems (join out stagingDirectory) c.copies).on (withStagingDirectory out h) =
          (.error (.unreadableSource r refusal), h') := by
  rw [stage]
  split
  · rename_i hempty
    rw [List.isEmpty_iff.mp hempty]
    exact ⟨fun hrun => (nomatch hrun), fun hrun => (nomatch hrun.2)⟩
  rw [Action.on_bind_eq_error]
  constructor
  · rintro (hmake | ⟨_, h₁, hmake, hrest⟩)
    · exact absurd hmake on_ensureDirectories_ne_unreadable
    · rw [withStagingDirectory, hmake]
      exact ⟨rfl, hrest⟩
  · rintro ⟨hmake, hrest⟩
    exact Or.inr ⟨(), _, hmake, hrest⟩

/-- Whatever was to be staged and on whatever machine: if staging stops at an item because its source
cannot be read, the file of the item is empty then, and so is what a mount of it gives.  It is as it was
before exactly if it was there before and empty. -/
theorem stagedFile_kept_iff
    (hrun : (stage c out).on h = (.error (.unreadableSource r refusal), h')) :
    ∃ before item after place h₁, c.copies = before ++ item :: after ∧ item.source = .reference r ∧
      StopsAt (join out stagingDirectory) before item place (.unreadableSource r refusal)
        (withStagingDirectory out h) h₁ h' ∧
      h'.place? (stagedPath (join out stagingDirectory) item) = some place ∧
      h'.files.get? place = some (.file .empty) ∧
      (mountOf item).content? out h' = some .empty ∧
      (h'.files.get? place = h.files.get? place ↔ h.files.get? place = some (.file .empty)) := by
  obtain ⟨-, hitems⟩ := on_stage_eq_unreadable.mp hrun
  obtain ⟨before, item, after, place, h₁, hcopies, hr, hstop⟩ := exists_stopsAt hitems
  have hd := hstop.emptied.sameDirectories hstop.writable
  have hempty := hstop.emptied.get?_self hstop.writable
  have hread := Host.read_of_writable hstop.writable hd hempty
  refine ⟨before, item, after, place, h₁, hcopies, hr, hstop, ?_, hempty, ?_, ?_⟩
  · rw [hd.place?_eq, Host.place?_of_writable hstop.writable]
  · exact content?_mountOf (isName_of_writable_stagedPath hstop.writable) hread
  · rw [hempty, eq_comm]

/-- A script that is not there, behind one that is given as text and one of an earlier conversion. -/
theorem stagedFile_kept_iff_of_missing_script :
    let c : Contract := ⟨"db", "1", [], [],
      [⟨"/a/one.sql", .inline "SELECT 1;".toUTF8⟩,
        ⟨"/a/two.sql", .reference (.ofText "missing.sql")⟩], []⟩
    let h : Host :=
      { files := ⟨[(["tmp"], .directory), (["tmp", "out"], .directory),
          (["tmp", "out", "initdb"], .directory),
          (["tmp", "out", "initdb", "two.sql"], .file "SELECT 2;".toUTF8)]⟩
        workingDirectory := ["tmp"]
        environment := []
        log := [] }
    ∃ h', (stage c "out").on h =
        (.error (.unreadableSource (.ofText "missing.sql") ⟨.noEntry, "missing.sql"⟩), h') ∧
      ∃ item place, item ∈ c.copies ∧ item.source = .reference (.ofText "missing.sql") ∧
        h'.files.get? place = some (.file .empty) ∧ (mountOf item).content? "out" h' = some .empty := by
  intro c h
  have hrun : (stage c "out").on h =
      (.error (.unreadableSource (.ofText "missing.sql") ⟨.noEntry, "missing.sql"⟩), _) :=
    Action.on_eq_error_of_decide (by decide +kernel)
  obtain ⟨before, item, after, place, h₁, hcopies, hr, -, -, hempty, hmount, -⟩ :=
    stagedFile_kept_iff hrun
  exact ⟨_, hrun, item, place, hcopies ▸ by simp, hr, hempty, hmount⟩

/-- A script that an earlier conversion has staged, where its source is no longer there: what was
staged is lost. -/
theorem staged_script_lost :
    let h : Host :=
      { files := ⟨[(["tmp"], .directory), (["tmp", "out"], .directory),
          (["tmp", "out", "initdb"], .directory),
          (["tmp", "out", "initdb", "init_0.sql"], .file "SELECT 1;".toUTF8)]⟩
        workingDirectory := ["tmp"]
        environment := []
        log := [] }
    let r := Reference.ofText "missing.sql"
    ∃ i h', (ImageKind.postgres.image .default).calls [.initSql (.path r)] = .ok i ∧
      (stage i.contract "out").on h =
        (.error (.unreadableSource r ⟨.noEntry, "missing.sql"⟩), h') ∧
      h.read (scriptPath "out" 0) = .ok "SELECT 1;".toUTF8 ∧
      h'.read (scriptPath "out" 0) = .ok .empty ∧ ByteArray.empty ≠ "SELECT 1;".toUTF8 := by
  intro h r
  let i : Image :=
    .postgres ⟨Postgres.defaultEnv, [⟨Postgres.scriptTarget 0, .reference r⟩], false⟩
  have hbuild : (ImageKind.postgres.image .default).calls [.initSql (.path r)] = .ok i := rfl
  have hrun : (stage i.contract "out").on h =
      (.error (.unreadableSource r ⟨.noEntry, "missing.sql"⟩), _) :=
    Action.on_eq_error_of_decide (by decide +kernel)
  exact ⟨i, _, hbuild, hrun, Action.eq_ok_of_toOption (by decide +kernel),
    Action.eq_ok_of_toOption (by decide +kernel), by decide⟩

end Compose
end DbImage
