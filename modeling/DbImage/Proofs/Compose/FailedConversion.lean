import DbImage.Proofs.Compose.Convert
import DbImage.Proofs.Compose.Layout
import DbImage.Proofs.Compose.Turns
import DbImage.Proofs.Number.Numeral

/-!
# What a failed conversion leaves of the compose file

Making directories and staging files, whether they succeed or not, keep away from the compose file.
But the compose file is opened, which empties it, before its text is made, and a condition without a
one-line form then ends the conversion.  `composeFile_kept_iff` says that the compose file is lost in
this way and in no other.
-/

namespace DbImage

open Files (Action AddsDirectories Host IsName Location OnTheWay WritesFiles join steps)

namespace Files.Tree

/-- The content of the file at a place, if a file stands there. -/
def file? (t : Tree) (l : Location) : Option ByteArray :=
  match t.get? l with
  | some (.file content) => some content
  | _ => none

theorem file?_of_get? {t : Tree} {l : Location} {content : ByteArray}
    (h : t.get? l = some (.file content)) : t.file? l = some content := by
  rw [file?, h]

end Files.Tree

namespace Readiness

/-- A wait without a length, or an exit code with more digits than are ever written out. -/
def Undescribed (r : Readiness) : Prop :=
  r.kind = .duration ∧ r.duration = none ∨
    r.kind = .exit ∧ ∃ code, r.exitCode = some code ∧ 10 ^ Number.digitLimit ≤ code.natAbs

theorem exists_describe_eq_error_iff {r : Readiness} :
    (∃ e, r.describe = .error e) ↔ r.Undescribed := by
  obtain ⟨kind, message, duration, exitCode⟩ := r
  cases kind with
  | duration => cases duration <;> simp [describe, Undescribed]
  | exit =>
    cases exitCode with
    | none => simp [describe, Undescribed]
    | some code =>
      rw [describe, Undescribed]
      dsimp only
      split
      · rename_i hlong
        simpa using (Number.digitLimit_lt_length_iff _).mp hlong
      · rename_i hshort
        simpa using fun hle => hshort ((Number.digitLimit_lt_length_iff _).mpr hle)
  | nothing => simp [describe, Undescribed]
  | stdoutMessage => simp [describe, Undescribed]
  | stderrMessage => simp [describe, Undescribed]
  | healthcheck => simp [describe, Undescribed]

end Readiness

namespace Compose

variable {c : Contract} {service out : String} {mounts : List Mount} {e : Failure}
  {h h₀ h₁ h' : Host} {l : Location}

/-- There is no text for a compose file exactly if one of the conditions has no one-line form. -/
theorem exists_render_eq_error_iff :
    (∃ e, render c service mounts = .error e) ↔ ∃ r ∈ c.ready, r.Undescribed := by
  constructor
  · intro herror
    obtain ⟨e, he⟩ := herror
    refine Classical.byContradiction fun hnone => ?_
    have hall : ∀ r ∈ c.ready, ∃ l, r.describe = .ok l := by
      intro r hr
      cases hd : r.describe with
      | ok l => exact ⟨l, rfl⟩
      | error e => exact absurd ⟨r, hr, Readiness.exists_describe_eq_error_iff.mp ⟨e, hd⟩⟩ hnone
    obtain ⟨ls, hls⟩ := exists_describeAll hall
    rw [render, hls] at he
    cases he
  · intro hsome
    obtain ⟨r, hr, hundescribed⟩ := hsome
    obtain ⟨e, he⟩ := Readiness.exists_describe_eq_error_iff.mpr hundescribed
    cases hall : describeAll c.ready with
    | error e' => exact ⟨e', by rw [render, hall]; rfl⟩
    | ok ls =>
      have hmem : r.describe ∈ ls.map Except.ok :=
        describeAll_eq_ok.mp hall ▸ List.mem_map_of_mem hr
      obtain ⟨_, -, hd⟩ := List.mem_map.mp hmem
      rw [he] at hd
      cases hd

/-! ## Up to the compose file -/

/-- What a conversion does before it comes to the compose file. -/
def stageBeside (c : Contract) (out : String) : Action (List Mount) := do
  Action.ensureDirectories out
  stage c out

theorem convert_eq_stageBeside (c : Contract) (service out : String) :
    convert c service out = do
      let mounts ← stageBeside c out
      let place ← Action.openForWriting (composePath out)
      let text ← MonadExcept.ofExcept (render c service mounts)
      Action.put place (.file text.toUTF8)
      Action.record (.composeWritten c.imageRef (composePath out))
      return composePath out := by
  simp only [convert, stageBeside, composePath, bind_assoc]

/-- A conversion fails before it comes to the compose file, or because the compose file cannot be
opened, or, once that is opened and thereby emptied, because there is no text for it. -/
theorem on_convert_eq_error (hrun : (convert c service out).on h = (.error e, h')) :
    (stageBeside c out).on h = (.error e, h') ∨
    ∃ mounts h₁, (stageBeside c out).on h = (.ok mounts, h₁) ∧
      ((∃ fault, h₁.writable (composePath out) = .error fault ∧ e = .ofFault fault ∧ h' = h₁) ∨
        ∃ place, h₁.writable (composePath out) = .ok place ∧
          render c service mounts = .error e ∧ h' = h₁.put place (.file .empty)) := by
  rw [convert_eq_stageBeside, Action.on_bind_eq_error] at hrun
  rcases hrun with hbeside | ⟨mounts, h₁, hbeside, hrun⟩
  · exact Or.inl hbeside
  refine Or.inr ⟨mounts, h₁, hbeside, ?_⟩
  rcases Action.on_bind_eq_error.mp hrun with hopen | ⟨place, h₂, hopen, hrun⟩
  · exact Or.inl (Action.on_openForWriting_eq_error.mp hopen)
  obtain ⟨hw, rfl⟩ := Action.on_openForWriting_eq_ok.mp hopen
  rcases Action.on_bind_eq_error.mp hrun with htext | ⟨text, h₃, -, hrun⟩
  · rw [Action.on_ofExcept, Prod.mk.injEq] at htext
    obtain ⟨htext, rfl⟩ := htext
    exact Or.inr ⟨place, hw, htext, rfl⟩
  · -- with the text at hand nothing fails any more
    simp only [Action.on_bind, Action.on_put, Action.on_record, Action.on_pure] at hrun
    cases hrun

/-- In whatever way it ends, what comes before the compose file makes directories on the way to the
staged files and writes staged files. -/
theorem exists_made_and_written (c : Contract) (out : String) (h : Host) :
    ∃ h₀, AddsDirectories (OnTheWay h.workingDirectory (join out stagingDirectory)) h h₀ ∧
      WritesFiles (IsDestination (join out stagingDirectory) c.copies h₀) h₀
        ((stageBeside c out).on h).2 := by
  have hout := (Action.addsDirectories_ensureDirectories out h).mono
    fun _ hl => hl.join isName_stagingDirectory
  rw [stageBeside, Action.on_bind]
  rcases hmake : (Action.ensureDirectories out).on h with ⟨e | _, h₁⟩
  · rw [hmake] at hout
    exact ⟨h₁, hout, WritesFiles.refl h₁⟩
  rw [hmake] at hout
  dsimp only
  rw [stage]
  split
  · exact ⟨h₁, hout, WritesFiles.refl h₁⟩
  have hstaging := Action.addsDirectories_ensureDirectories (join out stagingDirectory) h₁
  rw [hout.workingDirectory] at hstaging
  dsimp only
  rw [Action.on_bind]
  rcases hmake' : (Action.ensureDirectories (join out stagingDirectory)).on h₁ with ⟨e | _, h₂⟩
  · rw [hmake'] at hstaging
    exact ⟨h₂, hout.trans hstaging, WritesFiles.refl h₂⟩
  · rw [hmake'] at hstaging
    exact ⟨h₂, hout.trans hstaging, writesFiles_stageItems _ c.copies h₂⟩

/-- No file is staged at the place of the compose file, which lies one directory above. -/
theorem not_isDestination_of_composePath {items : List StagedItem}
    (hl : h.place? (composePath out) = some l) :
    ¬ IsDestination (join out stagingDirectory) items h l := by
  intro hd
  obtain ⟨item, -, hname, hplace⟩ := hd
  obtain ⟨here, hwalk, rfl⟩ := Host.place?_join isName_fileName hl
  obtain ⟨there, hwalk', -, hsame⟩ := Host.place?_join_join isName_stagingDirectory hname hplace
  obtain rfl : here = there := Except.ok.inj (hwalk.symm.trans hwalk')
  simpa using congrArg List.length hsame

/-- What comes before the compose file leaves its place as it was, unless a path with a step upwards
makes a directory there. -/
theorem get?_stageBeside (hl : ((stageBeside c out).on h).2.place? (composePath out) = some l) :
    ((stageBeside c out).on h).2.files.get? l = h.files.get? l ∨
      h.files.get? l = none ∧ ((stageBeside c out).on h).2.files.get? l = some .directory ∧
        ".." ∈ steps out := by
  obtain ⟨h₀, hmade, hwritten⟩ := exists_made_and_written c out h
  rw [hwritten.sameDirectories.place?_eq] at hl
  rw [hwritten.others l (not_isDestination_of_composePath hl)]
  refine (hmade.files l).imp_right fun ⟨hnone, hdir, hway⟩ => ⟨hnone, hdir, ?_⟩
  refine Classical.byContradiction fun habove => ?_
  rw [← hmade.workingDirectory] at hway
  exact Files.not_onTheWay_join isName_stagingDirectory isName_fileName (by decide) habove hl hway

/-- The path of the compose file leads where it did before, if it led anywhere. -/
theorem place?_stageBeside {path : String} (hl : h.place? path = some l) :
    ((stageBeside c out).on h).2.place? path = some l := by
  obtain ⟨h₀, hmade, hwritten⟩ := exists_made_and_written c out h
  rw [hwritten.sameDirectories.place?_eq]
  refine Host.place?_mono hmade.workingDirectory (fun k hk => ?_) hl
  rcases hmade.files k with he | ⟨hnone, -, -⟩
  · rw [he, hk]
  · rw [hk] at hnone
    cases hnone

/-! ## The compose file -/

/-- A conversion opens the compose file, and then there is no text for it. -/
structure StopsAtText (c : Contract) (out : String) (h : Host) : Prop where
  opened : ∃ mounts h₁ place, (stageBeside c out).on h = (.ok mounts, h₁) ∧
    h₁.writable (composePath out) = .ok place
  undescribed : ∃ r ∈ c.ready, r.Undescribed

/-- A conversion that fails either stops for want of a text, and has emptied the compose file, or has
done nothing to it. -/
theorem stopsAtText_or_kept (hrun : (convert c service out).on h = (.error e, h')) :
    (StopsAtText c out h ∧ ∃ place,
      ((stageBeside c out).on h).2.writable (composePath out) = .ok place ∧
        h' = ((stageBeside c out).on h).2.put place (.file .empty)) ∨
    ¬ StopsAtText c out h ∧ h' = ((stageBeside c out).on h).2 := by
  rcases on_convert_eq_error hrun with hbeside | ⟨mounts, h₁, hbeside, hrest⟩
  · right
    rw [hbeside]
    refine ⟨fun hstops => ?_, rfl⟩
    obtain ⟨_, _, _, hok, -⟩ := hstops.opened
    rw [hbeside] at hok
    cases hok
  rw [hbeside]
  rcases hrest with ⟨fault, hw, -, rfl⟩ | ⟨place, hw, htext, rfl⟩
  · right
    refine ⟨fun hstops => ?_, rfl⟩
    obtain ⟨_, _, _, hok, hw'⟩ := hstops.opened
    rw [hbeside] at hok
    cases hok
    rw [hw] at hw'
    cases hw'
  · exact Or.inl ⟨⟨⟨mounts, h₁, place, hbeside, hw⟩, exists_render_eq_error_iff.mp ⟨e, htext⟩⟩,
      place, hw, rfl⟩

/-- Whatever a conversion that fails was to convert and on whatever machine it ran: the compose file
holds what it held before, and is still missing if it was, exactly if the conversion did not stop for
want of a text with something else in the file than nothing.  When it stops so, the file is left empty;
when not, nothing happens at its place, but for a directory that a path with a step upwards can make
there. -/
theorem composeFile_kept_iff (hrun : (convert c service out).on h = (.error e, h'))
    (hl : h.place? (composePath out) = some l ∨ h'.place? (composePath out) = some l) :
    (h'.files.file? l = h.files.file? l ↔
      ¬ (StopsAtText c out h ∧ h.files.file? l ≠ some .empty)) ∧
    (StopsAtText c out h → h'.files.file? l = some .empty) ∧
    (¬ StopsAtText c out h → h'.files.get? l = h.files.get? l ∨
      h.files.get? l = none ∧ h'.files.get? l = some .directory ∧ ".." ∈ steps out) := by
  rcases stopsAtText_or_kept hrun with ⟨hstops, place, hw, rfl⟩ | ⟨hnot, rfl⟩
  · have hplace : ((stageBeside c out).on h).2.place? (composePath out) = some place :=
      Host.place?_of_writable hw
    obtain rfl : l = place := by
      have hopened := (Host.wrote_put place .empty _).sameDirectories hw
      rcases hl with hl | hl
      · exact Option.some.inj ((place?_stageBeside hl).symm.trans hplace)
      · rw [hopened.place?_eq] at hl
        exact Option.some.inj (hl.symm.trans hplace)
    have hempty : (((stageBeside c out).on h).2.put l (.file .empty)).files.file? l =
        some .empty :=
      Files.Tree.file?_of_get? (Files.Tree.get?_set_self _ _ (Host.ne_nil_of_writable hw))
    refine ⟨?_, fun _ => hempty, fun hnot => absurd hstops hnot⟩
    rw [hempty]
    simp [hstops, eq_comm]
  · have hplace : ((stageBeside c out).on h).2.place? (composePath out) = some l :=
      hl.elim place?_stageBeside id
    have hkept := get?_stageBeside hplace
    refine ⟨?_, fun hstops => absurd hstops hnot, fun _ => hkept⟩
    simp only [hnot, false_and, not_false_eq_true, iff_true]
    rcases hkept with he | ⟨hnone, hdir, -⟩
    · rw [Files.Tree.file?, he, ← Files.Tree.file?]
    · rw [Files.Tree.file?, Files.Tree.file?, hnone, hdir]

/-- A script that is missing ends the conversion; the compose file of an earlier one stays. -/
theorem composeFile_kept_iff_of_missing_script :
    let c : Contract := ⟨"db", "1", [.onStdout "up"], [],
      [⟨"/docker-entrypoint-initdb.d/init_0.sql", .reference (.ofText "missing.sql")⟩], []⟩
    let h : Host :=
      { files := ⟨[(["tmp"], .directory), (["tmp", "out"], .directory),
          (["tmp", "out", "docker-compose.yml"], .file "services: \x7b\x7d\n".toUTF8)]⟩
        workingDirectory := ["tmp"]
        environment := []
        log := [] }
    ∃ e h', (convert c "db" "out").on h = (.error e, h') ∧
      h.place? (composePath "out") = some ["tmp", "out", "docker-compose.yml"] ∧
      h'.files.file? ["tmp", "out", "docker-compose.yml"] = some "services: \x7b\x7d\n".toUTF8 := by
  intro c h
  obtain ⟨e, hrun⟩ := Action.exists_on_eq_error (x := convert c "db" "out") (h := h)
    (by decide +kernel)
  have hplace : h.place? (composePath "out") = some ["tmp", "out", "docker-compose.yml"] := by
    decide +kernel
  have hnot : ¬ StopsAtText c "out" h := by
    intro hstops
    obtain ⟨r, hr, hundescribed⟩ := hstops.undescribed
    obtain rfl : r = .onStdout "up" := List.mem_singleton.mp hr
    simp [Readiness.Undescribed, Readiness.onStdout, Readiness.ofKind] at hundescribed
  refine ⟨e, _, hrun, hplace, ?_⟩
  rw [(composeFile_kept_iff hrun (Or.inl hplace)).1.mpr fun hstops => hnot hstops.1]
  rfl

/-- A wait without a length, which a request for a condition can ask for, and the compose file of an
earlier conversion: the file is emptied. -/
theorem composeFile_emptied_by_wait_without_length :
    let r : Readiness := .ofKind .duration
    let c : Contract := ⟨"db", "1", [r], [], [], []⟩
    let h : Host :=
      { files := ⟨[(["tmp"], .directory), (["tmp", "out"], .directory),
          (["tmp", "out", "docker-compose.yml"], .file "services: \x7b\x7d\n".toUTF8)]⟩
        workingDirectory := ["tmp"]
        environment := []
        log := [] }
    Readiness.ofRequest (.fields [("kind", .text "duration")]) = .ok r ∧
    h.read (composePath "out") = .ok "services: \x7b\x7d\n".toUTF8 ∧
    ∃ h', (convert c "db" "out").on h = (.error .wrongType, h') ∧
      h'.read (composePath "out") = .ok .empty ∧ ByteArray.empty ≠ "services: \x7b\x7d\n".toUTF8 := by
  intro r c h
  have hrun : ((convert c "db" "out").on h).1 = .error .wrongType := by
    rfl
  exact ⟨rfl, Action.eq_ok_of_toOption (by decide +kernel), _, Prod.ext hrun rfl,
    Action.eq_ok_of_toOption (by decide +kernel), by decide⟩

end Compose
end DbImage
