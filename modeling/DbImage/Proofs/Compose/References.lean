import DbImage.Proofs.Compose.Convert
import DbImage.Proofs.Compose.Turns

/-!
# What references are staged with

A script's file is emptied before its source is read, and the files of the scripts before it have been
written by then.  So a reference that leads to one of these files finds something else there than it
did before, unless the file held the same already.  `references_staged_iff` says that this is the only
way in which a script is not staged with what its reference held.
-/

namespace DbImage

open Files (Action Host IsName Location SameDirectories baseName join)

namespace Compose

open Postgres (scriptName scriptTarget)

/-- The machine once the directory for staged files is made. -/
def withStagingDirectory (out : String) (h : Host) : Host :=
  ((Action.ensureDirectories (join out stagingDirectory)).on h).2

/-- Wherever a reference leads to a file that is opened no later than the reference is read, the file
holds already what it is given by then: nothing if it is the file of the reference's own script, and
else the content of the script that it belongs to. -/
def ReadInTime (out : String) (scripts : List Source) (h : Host) : Prop :=
  ∀ n (_ : n < scripts.length) r, scripts[n] = .reference r →
    ∀ m (_ : m < scripts.length), m ≤ n → h.SamePlace r.text (scriptPath out m) →
      ∃ bytes, h.read r.text = .ok bytes ∧
        if m = n then bytes = .empty else scripts[m].content h = .ok bytes

variable {c : Contract} {out : String} {scripts : List Source} {h h' : Host} {n : Nat}
  {directory : String} {before after : List StagedItem} {item other : StagedItem}
  {place : Location} {content bytes : ByteArray} {h₁ : Host} {r : Files.Reference}

/-! ## The turn of a reference -/

namespace Turn

variable (ht : Turn directory before item after place content h h₁ h')
  (hr : item.source = .reference r)

include ht hr

theorem read_reference : (h₁.put place (.file .empty)).read r.text = .ok content := by
  have hread := ht.read
  rwa [hr, Source.content_reference_eq_ok] at hread

/-- A reference to the file of its own item finds nothing in it. -/
theorem content_of_own (hsame : h.SamePlace r.text (stagedPath directory item)) :
    content = .empty := by
  obtain ⟨l, hl, hget⟩ := Host.get?_of_read (ht.read_reference hr)
  rw [ht.sameDirectories_opened.place?_eq] at hl
  obtain ⟨k, hk, hk'⟩ := hsame
  obtain rfl : place = k := Option.some.inj (ht.place?_eq.symm.trans hk')
  obtain rfl : l = place := Option.some.inj (hl.symm.trans hk)
  rw [Host.files_put, Files.Tree.get?_set_self _ _ (Host.ne_nil_of_writable ht.writable)] at hget
  simpa using hget.symm

/-- A reference to a file that nothing is written to from its item's turn on finds what the file holds
in the end. -/
theorem content_of_settled (hother : h'.read (stagedPath directory other) = .ok bytes)
    (hsame : h.SamePlace r.text (stagedPath directory other))
    (hitem : ¬ h.SamePlace (stagedPath directory other) (stagedPath directory item))
    (hlater : ∀ l, h.place? (stagedPath directory other) = some l →
      ¬ IsDestination directory after h l) : bytes = content := by
  obtain ⟨l, hl, hget⟩ := Host.get?_of_read (ht.read_reference hr)
  obtain ⟨k, hk, hget'⟩ := Host.get?_of_read hother
  rw [ht.sameDirectories_opened.place?_eq] at hl
  rw [(ht.sameDirectories_before.trans ht.sameDirectories_after).place?_eq] at hk
  obtain ⟨j, hj, hj'⟩ := hsame
  obtain rfl : l = j := Option.some.inj (hl.symm.trans hj)
  obtain rfl : k = l := Option.some.inj (hk.symm.trans hj')
  have hne : k ≠ place := fun e => hitem ⟨k, hk, e ▸ ht.place?_eq⟩
  rw [ht.get?_of_not_after (hlater k hk), Host.files_put, Files.Tree.get?_set_of_ne _ _ hne] at hget'
  rw [Host.files_put, Files.Tree.get?_set_of_ne _ _ hne, hget'] at hget
  simpa using hget

/-- A reference to any other file finds what the file held at the start. -/
theorem content_of_apart (hitem : ¬ h.SamePlace r.text (stagedPath directory item))
    (hbefore : ∀ l, h.place? r.text = some l → ¬ IsDestination directory before h l) :
    h.read r.text = .ok content := by
  have hread := ht.read_reference hr
  have hopened := Files.WritesFiles.of_wrote (Host.wrote_put place .empty h₁) ht.writable
  rw [hopened.read_eq_ok fun l hl hl' => ?_, ht.before.read_eq_ok hbefore] at hread
  · exact hread
  · rw [ht.sameDirectories_before.place?_eq] at hl hl'
    exact hitem ⟨l, hl, hl'⟩

end Turn

/-! ## The turn of a script -/

section

variable (hcopies : c.copies = scripts.mapIdx fun n s => ⟨scriptTarget n, s⟩)

include hcopies

theorem mem_take_copies_iff :
    item ∈ c.copies.take n ↔
      ∃ m, ∃ hm : m < scripts.length, m < n ∧ ⟨scriptTarget m, scripts[m]⟩ = item := by
  constructor
  · intro hitem
    obtain ⟨m, hm, rfl⟩ := List.mem_take_iff_getElem.mp hitem
    simp only [hcopies, List.length_mapIdx, Nat.lt_min] at hm
    exact ⟨m, hm.2, hm.1, by simp only [hcopies, List.getElem_mapIdx]⟩
  · rintro ⟨m, hm, hmn, rfl⟩
    have hlength : m < c.copies.length := by simpa [hcopies] using hm
    refine List.mem_take_iff_getElem.mpr ⟨m, Nat.lt_min.mpr ⟨hmn, hlength⟩, ?_⟩
    simp only [hcopies, List.getElem_mapIdx]

theorem exists_script_of_mem_drop (hitem : item ∈ c.copies.drop n) :
    ∃ m, ∃ hm : m < scripts.length, n ≤ m ∧ ⟨scriptTarget m, scripts[m]⟩ = item := by
  obtain ⟨m, hm, rfl⟩ := List.mem_drop_iff_getElem.mp hitem
  simp only [hcopies, List.length_mapIdx] at hm
  exact ⟨n + m, Nat.add_comm m n ▸ hm, Nat.le_add_right n m,
    by simp only [hcopies, List.getElem_mapIdx]⟩

theorem copies_eq_take_append (hn : n < scripts.length) :
    c.copies = c.copies.take n ++ ⟨scriptTarget n, scripts[n]⟩ :: c.copies.drop (n + 1) := by
  have hlength : n < c.copies.length := by simpa [hcopies] using hn
  have hitem : c.copies[n] = ⟨scriptTarget n, scripts[n]⟩ := by
    simp only [hcopies, List.getElem_mapIdx]
  rw [← hitem, ← List.drop_eq_getElem_cons hlength, List.take_append_drop]

/-- Every script has its turn, between those before it and those after it. -/
theorem exists_script_turn {mounts : List Mount}
    (hrun : (stageItems (join out stagingDirectory) c.copies).on h = (.ok mounts, h'))
    (hn : n < scripts.length) :
    ∃ place content h₁, Turn (join out stagingDirectory) (c.copies.take n)
      ⟨scriptTarget n, scripts[n]⟩ (c.copies.drop (n + 1)) place content h h₁ h' := by
  rw [copies_eq_take_append hcopies hn] at hrun
  exact exists_turn hrun

/-- A script's file is not written again after the script's turn. -/
theorem not_isDestination_of_script {m : Nat} (hmn : m < n) {l : Location}
    (hl : h.place? (scriptPath out m) = some l) :
    ¬ IsDestination (join out stagingDirectory) (c.copies.drop n) h l := by
  intro hd
  obtain ⟨item, hitem, -, hplace⟩ := hd
  obtain ⟨k, hk, hnk, rfl⟩ := exists_script_of_mem_drop hcopies hitem
  rw [stagedPath_script] at hplace
  exact absurd (eq_of_samePlace_scriptPath ⟨l, hl, hplace⟩)
    (Nat.ne_of_lt (Nat.lt_of_lt_of_le hmn hnk))

/-- What a script is staged with: its own content if it has any, and else what its reference finds in
the script's own file, in that of an earlier script, or anywhere else. -/
theorem exists_staged_script {mounts : List Mount}
    (hrun : (stageItems (join out stagingDirectory) c.copies).on h = (.ok mounts, h'))
    (hn : n < scripts.length) :
    ∃ content, h'.read (scriptPath out n) = .ok content ∧
      (∀ bytes, scripts[n] = .inline bytes → content = bytes) ∧
      ∀ r, scripts[n] = .reference r →
        (h.SamePlace r.text (scriptPath out n) → content = .empty) ∧
        (∀ m, m < n → h.SamePlace r.text (scriptPath out m) →
          ∀ bytes, h'.read (scriptPath out m) = .ok bytes → bytes = content) ∧
        ((∀ m, m < scripts.length → m ≤ n → ¬ h.SamePlace r.text (scriptPath out m)) →
          h.read r.text = .ok content) := by
  obtain ⟨place, content, h₁, hturn⟩ := exists_script_turn hcopies hrun hn
  have hpath := stagedPath_script out n scripts[n]
  have hplace := hturn.place?_eq
  rw [hpath] at hplace
  have hread := hturn.read_eq (not_isDestination_of_script hcopies (Nat.lt_succ_self n) hplace)
  rw [hpath] at hread
  refine ⟨content, hread, fun bytes hb => ?_, fun r hr => ⟨fun hown => ?_, ?_, fun hapart => ?_⟩⟩
  · simpa [hb, Source.content_inline, eq_comm] using hturn.read
  · exact hturn.content_of_own hr (by rwa [hpath])
  · intro m hmn hsame bytes hbytes
    have hm : m < scripts.length := Nat.lt_trans hmn hn
    rw [← stagedPath_script out m scripts[m]] at hsame hbytes
    refine hturn.content_of_settled hr hbytes hsame (fun hitem => ?_) fun l hl => ?_
    · rw [stagedPath_script, hpath] at hitem
      exact absurd (eq_of_samePlace_scriptPath hitem) (Nat.ne_of_lt hmn)
    · rw [stagedPath_script] at hl
      exact not_isDestination_of_script hcopies (Nat.lt_succ_of_lt hmn) hl
  · refine hturn.content_of_apart hr (fun hsame => ?_) fun l hl hd => ?_
    · rw [hpath] at hsame
      exact hapart n hn (Nat.le_refl n) hsame
    · obtain ⟨item, hitem, -, hplace'⟩ := hd
      obtain ⟨m, hm, hmn, rfl⟩ := (mem_take_copies_iff hcopies).mp hitem
      rw [stagedPath_script] at hplace'
      exact hapart m hm (Nat.le_of_lt hmn) ⟨l, hl, hplace'⟩

/-- Scripts are staged with what their sources held at the start exactly if each reference is read in
time. -/
theorem contents_staged_iff {mounts : List Mount}
    (hrun : (stageItems (join out stagingDirectory) c.copies).on h = (.ok mounts, h')) :
    (∀ n (hn : n < scripts.length), ∃ bytes,
      scripts[n].content h = .ok bytes ∧ h'.read (scriptPath out n) = .ok bytes) ↔
    ReadInTime out scripts h := by
  constructor
  · intro hkept n hn r hr m hm hmn hsame
    obtain ⟨content, hread, -, href⟩ := exists_staged_script hcopies hrun hn
    obtain ⟨hown, hearlier, -⟩ := href r hr
    obtain ⟨bytes, hbytes, hread'⟩ := hkept n hn
    obtain rfl : bytes = content := Except.ok.inj (hread'.symm.trans hread)
    rw [hr, Source.content_reference_eq_ok] at hbytes
    refine ⟨bytes, hbytes, ?_⟩
    split
    · rename_i hmn'
      exact hown (hmn' ▸ hsame)
    · rename_i hmn'
      obtain ⟨bytes', hbytes', hread''⟩ := hkept m hm
      rw [← hearlier m (Nat.lt_of_le_of_ne hmn hmn') hsame bytes' hread'']
      exact hbytes'
  · intro htime n
    -- an earlier script has been staged with what its source held
    induction n using Nat.strongRecOn with
    | ind n ih =>
      intro hn
      obtain ⟨content, hread, hinline, href⟩ := exists_staged_script hcopies hrun hn
      refine ⟨content, ?_, hread⟩
      cases hs : scripts[n] with
      | inline bytes => rw [hinline bytes hs, Source.content_inline]
      | reference r =>
        rw [Source.content_reference_eq_ok]
        obtain ⟨hown, hearlier, hother⟩ := href r hs
        by_cases hfile : ∃ m, m < scripts.length ∧ m ≤ n ∧ h.SamePlace r.text (scriptPath out m)
        · obtain ⟨m, hm, hmn, hsame⟩ := hfile
          obtain ⟨bytes, hbytes, hgiven⟩ := htime n hn r hs m hm hmn hsame
          suffices bytes = content from this ▸ hbytes
          by_cases he : m = n
          · rw [if_pos he] at hgiven
            rw [hgiven, hown (he ▸ hsame)]
          · rw [if_neg he] at hgiven
            have hlt : m < n := Nat.lt_of_le_of_ne hmn he
            obtain ⟨bytes', hbytes', hread'⟩ := ih m hlt hm
            obtain rfl : bytes = bytes' := Except.ok.inj (hgiven.symm.trans hbytes')
            exact hearlier m hlt hsame bytes hread'
        · exact hother fun m hm hmn hsame => hfile ⟨m, hm, hmn, hsame⟩

end

/-- Whatever calls made an image and whatever machine its files are staged on: the scripts given by
reference are staged with what their files held exactly if each is read in time. -/
theorem references_staged_iff {k : ImageKind} {cs : List BuilderCall} {i : Image} {out : String}
    {mounts : List Mount} {h h' : Host} (hbuild : (k.image .default).calls cs = .ok i)
    (hrun : (stage i.contract out).on h = (.ok mounts, h')) :
    (∀ n (_ : n < (Outline.ofCalls cs).sources.length) r,
      (Outline.ofCalls cs).sources[n] = .reference r →
        ∃ bytes, (withStagingDirectory out h).read r.text = .ok bytes ∧
          h'.read (scriptPath out n) = .ok bytes) ↔
    ReadInTime out (Outline.ofCalls cs).sources (withStagingDirectory out h) := by
  have hcopies := Image.copies_of_calls hbuild
  have hitems := on_stage_eq_ok hrun
  generalize (Outline.ofCalls cs).sources = scripts at hcopies
  generalize i.contract = c at hcopies hitems
  by_cases hnone : scripts = []
  · subst hnone
    exact ⟨fun _ n hn => absurd hn (Nat.not_lt_zero n), fun _ n hn => absurd hn (Nat.not_lt_zero n)⟩
  have hsome : ¬ c.copies.isEmpty = true := by simpa [hcopies] using hnone
  rw [if_neg hsome, ← withStagingDirectory] at hitems
  rw [← contents_staged_iff hcopies hitems]
  constructor
  · intro hrefs n hn
    obtain ⟨content, hread, hinline, -⟩ := exists_staged_script hcopies hitems hn
    cases hs : scripts[n] with
    | inline bytes => exact ⟨bytes, Source.content_inline _ _, hinline bytes hs ▸ hread⟩
    | reference r =>
      obtain ⟨bytes, hbytes, hread'⟩ := hrefs n hn r hs
      exact ⟨bytes, Source.content_reference_eq_ok.mpr hbytes, hread'⟩
  · intro hkept n hn r hr
    obtain ⟨bytes, hbytes, hread⟩ := hkept n hn
    rw [hr, Source.content_reference_eq_ok] at hbytes
    exact ⟨bytes, hbytes, hread⟩

/-- A reference to a script that an earlier conversion has staged, for one that comes later now. -/
theorem references_staged_iff_of_later_script :
    let h : Host :=
      { files := ⟨[(["tmp"], .directory), (["tmp", "out"], .directory),
          (["tmp", "out", "initdb"], .directory),
          (["tmp", "out", "initdb", "init_1.sql"], .file "SELECT 1;".toUTF8)]⟩
        workingDirectory := ["tmp"]
        environment := []
        log := [] }
    let r := Files.Reference.ofText "out/initdb/init_1.sql"
    let cs : List BuilderCall := [.initSql (.path r), .initSql (.text "SELECT 2;")]
    ∃ i mounts h', (ImageKind.postgis.image .default).calls cs = .ok i ∧
      (stage i.contract "out").on h = (.ok mounts, h') ∧
      ∃ bytes, (withStagingDirectory "out" h).read r.text = .ok bytes ∧
        h'.read (scriptPath "out" 0) = .ok bytes := by
  intro h r cs
  let i : Image := .postgis ⟨Postgres.defaultEnv,
    [⟨scriptTarget 0, .reference r⟩, ⟨scriptTarget 1, .inline "SELECT 2;".toUTF8⟩], false⟩
  have hbuild : (ImageKind.postgis.image .default).calls cs = .ok i := rfl
  have hrun : (stage i.contract "out").on h = (.ok (scriptMounts 2), _) :=
    Files.Action.on_eq_of_toOption (by decide +kernel)
  refine ⟨i, _, _, hbuild, hrun, (references_staged_iff hbuild hrun).mpr ?_ 0 (by decide) r rfl⟩
  have hplace : (withStagingDirectory "out" h).place? r.text =
      some ["tmp", "out", "initdb", "init_1.sql"] := by decide +kernel
  have hown : (withStagingDirectory "out" h).place? (scriptPath "out" 0) =
      some ["tmp", "out", "initdb", "init_0.sql"] := by decide +kernel
  intro n hn r' hr' m hm hmn hsame
  have hscripts : (Outline.ofCalls cs).sources = [.reference r, .inline "SELECT 2;".toUTF8] := rfl
  simp only [hscripts] at hn hr'
  cases n with
  | zero =>
    obtain rfl : m = 0 := Nat.le_zero.mp hmn
    obtain rfl : r = r' := by simpa using hr'
    obtain ⟨l, hl, hl'⟩ := hsame
    rw [hplace] at hl
    rw [hown, ← hl] at hl'
    exact absurd hl' (by decide)
  | succ n =>
    have hlast : n + 1 < 2 := hn
    obtain rfl : n = 0 := by omega
    cases hr'

/-- A reference to the file that its own script is staged at: the script is staged with nothing. -/
theorem own_file_staged_empty :
    let h : Host :=
      { files := ⟨[(["tmp"], .directory), (["tmp", "out"], .directory),
          (["tmp", "out", "initdb"], .directory),
          (["tmp", "out", "initdb", "init_0.sql"], .file "SELECT 1;".toUTF8)]⟩
        workingDirectory := ["tmp"]
        environment := []
        log := [] }
    let r := Files.Reference.ofText "out/initdb/init_0.sql"
    ∃ i mounts h', (ImageKind.postgres.image .default).calls [.initSql (.path r)] = .ok i ∧
      (stage i.contract "out").on h = (.ok mounts, h') ∧
      (withStagingDirectory "out" h).read r.text = .ok "SELECT 1;".toUTF8 ∧
      h'.read (scriptPath "out" 0) = .ok .empty ∧ ByteArray.empty ≠ "SELECT 1;".toUTF8 := by
  intro h r
  let i : Image := .postgres ⟨Postgres.defaultEnv, [⟨scriptTarget 0, .reference r⟩], false⟩
  have hbuild : (ImageKind.postgres.image .default).calls [.initSql (.path r)] = .ok i := rfl
  have hrun : (stage i.contract "out").on h = (.ok (scriptMounts 1), _) :=
    Files.Action.on_eq_of_toOption (by decide +kernel)
  exact ⟨i, _, _, hbuild, hrun, Files.Action.eq_ok_of_toOption (by decide +kernel),
    Files.Action.eq_ok_of_toOption (by decide +kernel), by decide⟩

end Compose
end DbImage
