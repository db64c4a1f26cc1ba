import DbImage.Proofs.Compose.FailedConversion
import DbImage.Proofs.Compose.References
import DbImage.Proofs.Files.Standing

/-!
# Converting again

A second conversion begins on the machine that the first one leaves: the directories are there, and
each file holds already what it is about to be given.  So the second conversion leaves every file as it
is, if each reference finds again what it found the first time.  A reference does unless it leads to a
file that is written after the reference has been read, and that held something else before:
`convert_again_iff`.
-/

namespace DbImage

open Files (Action Host IsName Location SameDirectories join steps)

namespace Files.Host

/-- The place lies in the directory that the path leads to, or is that directory. -/
def Below (h : Host) (path : String) (l : Location) : Prop :=
  ∃ dir, h.files.walk (h.start path) (steps path) = .ok dir ∧ dir <+: l

theorem writable_withLog (h : Host) (log : List Event) (path : String) :
    ({ h with log := log } : Host).writable path = h.writable path := rfl

theorem read_withLog (h : Host) (log : List Event) (path : String) :
    ({ h with log := log } : Host).read path = h.read path := rfl

theorem eq_of_read_of_samePlace {h : Host} {a b : String} {bytes bytes' : ByteArray}
    (hsame : h.SamePlace a b) (ha : h.read a = .ok bytes) (hb : h.read b = .ok bytes') :
    bytes = bytes' := by
  obtain ⟨l, hl, hget⟩ := get?_of_read ha
  obtain ⟨l', hl', hget'⟩ := get?_of_read hb
  obtain ⟨k, hk, hk'⟩ := hsame
  obtain rfl : l = k := Option.some.inj (hl.symm.trans hk)
  obtain rfl : l' = l := Option.some.inj (hl'.symm.trans hk')
  rw [hget] at hget'
  simpa using hget'

end Files.Host

theorem Source.content_withLog (s : Source) (h : Host) (log : List Event) :
    s.content { h with log := log } = s.content h := by
  cases s <;> rfl

namespace Compose

open Postgres (scriptName scriptTarget)

/-! ## Items that are staged already -/

section

variable {directory : String} {item : StagedItem} {items : List StagedItem} {h : Host}
  {place : Location} {content : ByteArray}

/-- The item's file holds what the item is staged with. -/
structure Settled (directory : String) (item : StagedItem) (place : Location) (content : ByteArray)
    (h : Host) : Prop where
  writable : h.writable (stagedPath directory item) = .ok place
  read : item.source.content (h.put place (.file .empty)) = .ok content
  written : h.files.get? place = some (.file content)

theorem Settled.withLog (hs : Settled directory item place content h) (log : List Event) :
    Settled directory item place content { h with log := log } := by
  refine ⟨(Host.writable_withLog h log _).trans hs.writable, ?_, hs.written⟩
  change item.source.content { h.put place (.file .empty) with log := log } = _
  rw [Source.content_withLog, hs.read]

theorem on_stageItem_of_settled (hs : Settled directory item place content h) :
    ∃ log, (stageItem directory item).on h = (.ok (mountOf item), { h with log := log }) := by
  have hopen := Action.on_openForWriting_eq_ok.mpr ⟨hs.writable, rfl⟩
  obtain ⟨log, hread⟩ := item.source.on_read (h.put place (.file .empty))
  have hback : ({ h.put place (.file .empty) with log := log } : Host).put place (.file content) =
      { h with log := log } :=
    congrArg (fun k : Host => { k with log := log })
      (Host.put_put_eq_self (Host.ne_nil_of_writable hs.writable) hs.written)
  rw [stagedPath] at hopen
  refine ⟨log ++ [.staged (Files.baseName item.target) item.target], ?_⟩
  simp only [stageItem, Action.on_bind, hopen, hread, hs.read, Action.on_put, Action.on_record,
    Action.on_pure, hback]
  rfl

/-- Items that are all staged already leave no trace but in the log. -/
theorem on_stageItems_of_settled
    (hall : ∀ item ∈ items, ∃ place content, Settled directory item place content h) :
    ∃ log, (stageItems directory items).on h = (.ok (items.map mountOf), { h with log := log }) := by
  induction items generalizing h with
  | nil => exact ⟨h.log, rfl⟩
  | cons item rest ih =>
    rw [List.forall_mem_cons] at hall
    obtain ⟨⟨place, content, hs⟩, hrest⟩ := hall
    obtain ⟨log, hitem⟩ := on_stageItem_of_settled hs
    obtain ⟨log', hitems⟩ := ih (h := { h with log := log }) fun other hother => by
      obtain ⟨place', content', hs'⟩ := hrest other hother
      exact ⟨place', content', hs'.withLog log⟩
    refine ⟨log', ?_⟩
    rw [stageItems, Action.on_bind, hitem]
    dsimp only
    rw [Action.on_bind, hitems]
    rfl

end

/-! ## The directories are there -/

section

variable {c : Contract} {service out path : String} {mounts : List Mount} {h h₁ h' : Host}
  {place : Location} {text : String}

theorem join_ne_empty (out : String) : join out stagingDirectory ≠ "" := by
  intro e
  have hlast := Files.getLast?_steps_join out isName_stagingDirectory
  rw [e] at hlast
  cases hlast

theorem ne_empty_of_on_convert (hrun : (convert c service out).on h = (.ok path, h')) : out ≠ "" := by
  rintro rfl
  rw [convert, Action.on_bind, Action.on_ensureDirectories_empty] at hrun
  cases hrun

/-- After a conversion the directories that it makes are there. -/
theorem isDirectory_of_on_convert (hrun : (convert c service out).on h = (.ok path, h')) :
    h'.isDirectory out = true ∧
      (c.copies ≠ [] → h'.isDirectory (join out stagingDirectory) = true) := by
  obtain ⟨mounts, h₁, place, text, hstage, hw, -, hp, -⟩ := on_convert_eq_ok hrun
  have hd := hp.sameDirectories hw
  refine ⟨Host.isDirectory_of_writable_join (ne_empty_of_on_convert hrun) isName_fileName
    (Host.writable_congr hd hw), fun hsome => ?_⟩
  obtain ⟨item, rest, hitems⟩ := List.exists_cons_of_ne_nil hsome
  rw [hitems, ← List.nil_append (item :: rest)] at hstage
  obtain ⟨own, content, h₂, ht⟩ := exists_turn hstage
  exact Host.isDirectory_of_writable_join (join_ne_empty out) ht.isName
    (Host.writable_congr (ht.sameDirectories_after.trans hd) ht.writable)

theorem prepared_of_on_convert (hrun : (convert c service out).on h = (.ok path, h')) :
    prepared c out h' = h' := by
  obtain ⟨hout, hstaging⟩ := isDirectory_of_on_convert hrun
  rw [prepared, Action.on_ensureDirectories_of_isDirectory hout]
  dsimp only
  split
  · rfl
  · rename_i hsome
    have hne : c.copies ≠ [] := fun e => hsome (by rw [e]; rfl)
    rw [Action.on_ensureDirectories_of_isDirectory (hstaging hne)]

theorem stageBeside_of_settled (hout : h.isDirectory out = true)
    (hstaging : c.copies ≠ [] → h.isDirectory (join out stagingDirectory) = true)
    (hall : ∀ item ∈ c.copies, ∃ place content,
      Settled (join out stagingDirectory) item place content h) :
    ∃ log, (stageBeside c out).on h = (.ok (c.copies.map mountOf), { h with log := log }) := by
  rw [stageBeside, Action.on_bind, Action.on_ensureDirectories_of_isDirectory hout]
  dsimp only
  rw [stage]
  split
  · rename_i hempty
    rw [List.isEmpty_iff.mp hempty]
    exact ⟨h.log, rfl⟩
  · rename_i hsome
    have hne : c.copies ≠ [] := fun e => hsome (by rw [e]; rfl)
    dsimp only
    rw [Action.on_bind, Action.on_ensureDirectories_of_isDirectory (hstaging hne)]
    exact on_stageItems_of_settled hall

theorem on_convert_of_settled (hout : h.isDirectory out = true)
    (hstaging : c.copies ≠ [] → h.isDirectory (join out stagingDirectory) = true)
    (hall : ∀ item ∈ c.copies, ∃ place content,
      Settled (join out stagingDirectory) item place content h)
    (hw : h.writable (composePath out) = .ok place)
    (htext : render c service (c.copies.map mountOf) = .ok text)
    (hget : h.files.get? place = some (.file text.toUTF8)) :
    ∃ log, (convert c service out).on h = (.ok (composePath out), { h with log := log }) := by
  obtain ⟨log, hbeside⟩ := stageBeside_of_settled hout hstaging hall
  have hback := Host.put_put_eq_self (h := { h with log := log }) (Host.ne_nil_of_writable hw) hget
  have hopen := Action.on_openForWriting_eq_ok.mpr
    ⟨(Host.writable_withLog h log _).trans hw, rfl⟩
  refine ⟨log ++ [.composeWritten c.imageRef (composePath out)], ?_⟩
  simp only [convert_eq_stageBeside, Action.on_bind, hbeside, hopen, htext, Action.on_ofExcept,
    Action.on_put, Action.on_record, Action.on_pure, hback]

end

/-! ## What references find again -/

/-- A path that is written to after the `n`-th of so many scripts has been read. -/
def WrittenAfter (out : String) (count n : Nat) (path : String) : Prop :=
  path = composePath out ∨ ∃ m, n < m ∧ m < count ∧ path = scriptPath out m

/-- Wherever a reference leads to a file that is written after the reference has been read, the file
holds in the end what it held before. With the directories made, the machine that the conversion began
on has become `p`. -/
def FindsAgain (out : String) (scripts : List Source) (p h' : Host) : Prop :=
  ∀ n (_ : n < scripts.length) r, scripts[n] = .reference r →
    ∀ path, WrittenAfter out scripts.length n path → p.SamePlace r.text path →
      ∃ bytes, p.read r.text = .ok bytes ∧ h'.read path = .ok bytes

/-- No reference leads to a file in the output directory. -/
def ReadsOutside (out : String) (scripts : List Source) (h : Host) : Prop :=
  ∀ r, .reference r ∈ scripts → ∀ l bytes, h.place? r.text = some l →
    h.files.get? l = some (.file bytes) → ¬ h.Below out l

section

variable {c : Contract} {out : String} {scripts : List Source} {mounts : List Mount}
  {p h₁ h' : Host} {place : Location} {text : ByteArray} {n : Nat}

theorem below_of_writtenAfter {path : String} {l : Location}
    (hpath : WrittenAfter out scripts.length n path) (hl : p.place? path = some l) :
    p.Below out l := by
  rcases hpath with rfl | ⟨m, -, -, rfl⟩
  · obtain ⟨here, hwalk, rfl⟩ := Host.place?_join isName_fileName hl
    exact ⟨here, hwalk, List.prefix_append _ _⟩
  · obtain ⟨here, hwalk, -, rfl⟩ :=
      Host.place?_join_join isName_stagingDirectory (Postgres.isName_scriptName m) hl
    exact ⟨here, hwalk, List.prefix_append _ _⟩

theorem sameDirectories_of_run
    (hstage : (stageItems (join out stagingDirectory) c.copies).on p = (.ok mounts, h₁))
    (hw : h₁.writable (composePath out) = .ok place) (hp : Host.Wrote place text h₁ h') :
    SameDirectories p h' := by
  have hwrites := writesFiles_stageItems (join out stagingDirectory) c.copies p
  rw [hstage] at hwrites
  exact hwrites.sameDirectories.trans (hp.sameDirectories hw)

theorem place?_composePath_of_run
    (hstage : (stageItems (join out stagingDirectory) c.copies).on p = (.ok mounts, h₁))
    (hw : h₁.writable (composePath out) = .ok place) (hp : Host.Wrote place text h₁ h') :
    p.place? (composePath out) = some place := by
  rw [← (sameDirectories_of_run hstage hw hp).place?_eq, (hp.sameDirectories hw).place?_eq,
    Host.place?_of_writable hw]

variable (hcopies : c.copies = scripts.mapIdx fun n s => ⟨scriptTarget n, s⟩)

include hcopies

theorem not_isDestination_of_writtenAfter {path : String} {l : Location}
    (hpath : WrittenAfter out scripts.length n path) (hl : p.place? path = some l) :
    ¬ IsDestination (join out stagingDirectory) (c.copies.take n) p l := by
  rcases hpath with rfl | ⟨m, hnm, -, rfl⟩
  · exact not_isDestination_of_composePath hl
  · intro hd
    obtain ⟨item, hitem, -, hplace⟩ := hd
    obtain ⟨k, hk, hkn, rfl⟩ := (mem_take_copies_iff hcopies).mp hitem
    rw [stagedPath_script] at hplace
    exact absurd (eq_of_samePlace_scriptPath ⟨l, hplace, hl⟩)
      (Nat.ne_of_lt (Nat.lt_trans hkn hnm))

theorem exists_writtenAfter_of_isDestination {l : Location}
    (hl : IsDestination (join out stagingDirectory) (c.copies.drop (n + 1)) p l) :
    ∃ path, WrittenAfter out scripts.length n path ∧ p.place? path = some l := by
  obtain ⟨item, hitem, -, hplace⟩ := hl
  obtain ⟨m, hm, hnm, rfl⟩ := exists_script_of_mem_drop hcopies hitem
  rw [stagedPath_script] at hplace
  exact ⟨_, Or.inr ⟨m, hnm, hm, rfl⟩, hplace⟩

variable (hstage : (stageItems (join out stagingDirectory) c.copies).on p = (.ok mounts, h₁))
  (hw : h₁.writable (composePath out) = .ok place) (hp : Host.Wrote place text h₁ h')

include hstage hw hp

/-- A file that a script's reference may lead to, other than the script's own, stands in the end as it
did when the reference was read. -/
theorem get?_of_findsAgain (hfinds : FindsAgain out scripts p h') {own l : Location}
    {content : ByteArray} {h₂ : Host} {r : Files.Reference} (hn : n < scripts.length)
    (hr : scripts[n] = .reference r)
    (ht : Turn (join out stagingDirectory) (c.copies.take n) ⟨scriptTarget n, scripts[n]⟩
      (c.copies.drop (n + 1)) own content p h₂ h₁)
    (hl : p.place? r.text = some l) (hne : l ≠ own) : h'.files.get? l = h₂.files.get? l := by
  have hd := sameDirectories_of_run hstage hw hp
  by_cases hlater : ∃ path, WrittenAfter out scripts.length n path ∧ p.place? path = some l
  · -- nothing has written to the file when the reference is read
    obtain ⟨path, hpath, hplace⟩ := hlater
    obtain ⟨bytes, hread, hread'⟩ := hfinds n hn r hr path hpath ⟨l, hl, hplace⟩
    obtain ⟨k, hk, hget⟩ := Host.get?_of_read hread
    obtain ⟨k', hk', hget'⟩ := Host.get?_of_read hread'
    rw [hd.place?_eq] at hk'
    obtain rfl : k = l := Option.some.inj (hk.symm.trans hl)
    obtain rfl : k' = k := Option.some.inj (hk'.symm.trans hplace)
    rw [hget', ht.before.others k' (not_isDestination_of_writtenAfter hcopies hpath hplace), hget]
  · -- nothing writes to the file any more
    have hcompose : l ≠ place := by
      rintro rfl
      exact hlater ⟨_, Or.inl rfl, place?_composePath_of_run hstage hw hp⟩
    have hafter : ¬ IsDestination (join out stagingDirectory) (c.copies.drop (n + 1)) p l :=
      fun hdest => hlater (exists_writtenAfter_of_isDestination hcopies hdest)
    rw [hp.get?_of_ne hcompose, ht.get?_of_not_after hafter, Host.files_put,
      Files.Tree.get?_set_of_ne _ _ hne]

/-- After a conversion each script is staged already, if its reference finds again what it found. -/
theorem exists_settled_of_findsAgain (hfinds : FindsAgain out scripts p h') (hn : n < scripts.length) :
    ∃ own content,
      Settled (join out stagingDirectory) ⟨scriptTarget n, scripts[n]⟩ own content h' := by
  obtain ⟨own, content, h₂, ht⟩ := exists_script_turn hcopies hstage hn
  have hd := sameDirectories_of_run hstage hw hp
  have hd₂ : SameDirectories h₂ h' := ht.sameDirectories_before.symm.trans hd
  have hw' := Host.writable_congr hd₂ ht.writable
  have hplace := ht.place?_eq
  rw [stagedPath_script] at hplace
  have hne : own ≠ place := by
    rintro rfl
    exact not_samePlace_scriptPath_composePath
      ⟨own, hplace, place?_composePath_of_run hstage hw hp⟩
  refine ⟨own, content, hw', ?_, ?_⟩
  · cases hs : scripts[n] with
    | inline bytes => simpa [hs, Source.content_inline] using ht.read
    | reference r =>
      rw [Source.content_reference_eq_ok]
      -- in both conversions the reference is read with the script's own file emptied
      have hopened := (Host.wrote_put own .empty h').sameDirectories hw'
      have hown := Host.ne_nil_of_writable hw'
      refine Host.read_congr (ht.sameDirectories_opened.symm.trans (hd.trans hopened))
        (fun l hl => ?_) (ht.read_reference hs)
      rw [ht.sameDirectories_opened.place?_eq] at hl
      rw [Host.files_put, Host.files_put]
      by_cases hlown : l = own
      · rw [hlown, Files.Tree.get?_set_self _ _ hown, Files.Tree.get?_set_self _ _ hown]
      · rw [Files.Tree.get?_set_of_ne _ _ hlown, Files.Tree.get?_set_of_ne _ _ hlown]
        exact get?_of_findsAgain hcopies hstage hw hp hfinds hn hs ht hl hlown
  · rw [hp.get?_of_ne hne,
      ht.get?_of_not_after (not_isDestination_of_script hcopies (Nat.lt_succ_self n) hplace),
      Host.files_put, Files.Tree.get?_set_self _ _ (Host.ne_nil_of_writable ht.writable)]

end

/-! ## The conversion of an image -/

section

variable {c : Contract} {service out path : String} {scripts : List Source} {mounts : List Mount}
  {h p h₁ h' : Host} {place : Location} {text : ByteArray} {n : Nat} {r : Files.Reference}
  (hcopies : c.copies = scripts.mapIdx fun n s => ⟨scriptTarget n, s⟩)

theorem read_scriptPath_of_wrote (hw : h₁.writable (composePath out) = .ok place)
    (hp : Host.Wrote place text h₁ h') {bytes : ByteArray}
    (hread : h₁.read (scriptPath out n) = .ok bytes) : h'.read (scriptPath out n) = .ok bytes := by
  refine Host.read_congr (hp.sameDirectories hw) (fun l hl => hp.get?_of_ne ?_) hread
  rintro rfl
  exact not_samePlace_scriptPath_composePath ⟨l, hl, Host.place?_of_writable hw⟩

theorem not_samePlace_of_writtenAfter {count m : Nat} (hpath : WrittenAfter out count n path)
    (hmn : m ≤ n) : ¬ p.SamePlace (scriptPath out m) path := by
  rcases hpath with rfl | ⟨k, hnk, -, rfl⟩
  · exact not_samePlace_scriptPath_composePath
  · exact fun hsame => absurd (eq_of_samePlace_scriptPath hsame)
      (Nat.ne_of_lt (Nat.lt_of_le_of_lt hmn hnk))

include hcopies

/-- A script whose reference leads to a file that is written later is staged with what the file
holds. -/
theorem exists_read_of_writtenAfter
    (hstage : (stageItems (join out stagingDirectory) c.copies).on p = (.ok mounts, h₁))
    (hn : n < scripts.length) (hr : scripts[n] = .reference r)
    (hpath : WrittenAfter out scripts.length n path) (hsame : p.SamePlace r.text path) :
    ∃ content, p.read r.text = .ok content ∧ h₁.read (scriptPath out n) = .ok content := by
  obtain ⟨content, hread, -, href⟩ := exists_staged_script hcopies hstage hn
  refine ⟨content, (href r hr).2.2 fun m _ hmn hsame' => ?_, hread⟩
  obtain ⟨l, hl, hl'⟩ := hsame
  obtain ⟨k, hk, hk'⟩ := hsame'
  obtain rfl : k = l := Option.some.inj (hk.symm.trans hl)
  exact not_samePlace_of_writtenAfter hpath hmn ⟨k, hk', hl'⟩

theorem findsAgain_of_readsOutside
    (hstage : (stageItems (join out stagingDirectory) c.copies).on p = (.ok mounts, h₁))
    (houtside : ReadsOutside out scripts p) : FindsAgain out scripts p h' := by
  intro n hn r hr path hpath hsame
  obtain ⟨content, hread, -⟩ := exists_read_of_writtenAfter hcopies hstage hn hr hpath hsame
  obtain ⟨l, hl, hget⟩ := Host.get?_of_read hread
  obtain ⟨k, hk, hk'⟩ := hsame
  obtain rfl : l = k := Option.some.inj (hl.symm.trans hk)
  exact absurd (below_of_writtenAfter hpath hk')
    (houtside r (hr ▸ List.getElem_mem hn) l content hl hget)

/-- If every reference finds again what it found, a second conversion leaves everything as it is. -/
theorem on_convert_of_findsAgain (hrun : (convert c service out).on h = (.ok path, h'))
    (hfinds : FindsAgain out scripts (prepared c out h) h') :
    ∃ log, (convert c service out).on h' = (.ok path, { h' with log := log }) := by
  obtain ⟨hout, hstaging⟩ := isDirectory_of_on_convert hrun
  obtain ⟨mounts, h₁, place, text, hstage, hw, htext, hp, rfl⟩ := on_convert_eq_ok hrun
  rw [mounts_of_stageItems hstage] at htext
  refine on_convert_of_settled hout hstaging (fun item hitem => ?_)
    (Host.writable_congr (hp.sameDirectories hw) hw) htext (hp.get?_self hw)
  obtain ⟨n, hn, rfl⟩ := (mem_copies_iff hcopies).mp hitem
  exact exists_settled_of_findsAgain hcopies hstage hw hp hfinds hn

theorem exists_read_of_wrote
    (hstage : (stageItems (join out stagingDirectory) c.copies).on p = (.ok mounts, h₁))
    (hw : h₁.writable (composePath out) = .ok place) (hp : Host.Wrote place text h₁ h')
    (hpath : WrittenAfter out scripts.length n path) : ∃ bytes, h'.read path = .ok bytes := by
  rcases hpath with rfl | ⟨m, -, hm, rfl⟩
  · exact ⟨text, Host.read_of_writable hw (hp.sameDirectories hw) (hp.get?_self hw)⟩
  · obtain ⟨bytes, hread, -⟩ := exists_staged_script hcopies hstage hm
    exact ⟨bytes, read_scriptPath_of_wrote hw hp hread⟩

/-- If a second conversion leaves everything as it is, every reference has found again what it
found. -/
theorem findsAgain_of_on_convert {log : List Event}
    (hrun : (convert c service out).on h = (.ok path, h'))
    (hagain : (convert c service out).on h' = (.ok path, { h' with log := log })) :
    FindsAgain out scripts (prepared c out h) h' := by
  obtain ⟨mounts, h₁, place, text, hstage, hw, -, hp, -⟩ := on_convert_eq_ok hrun
  obtain ⟨mounts', h₂, place', text', hstage', hw', -, hp', -⟩ := on_convert_eq_ok hagain
  rw [prepared_of_on_convert hrun] at hstage'
  have hd := sameDirectories_of_run hstage hw hp
  intro n hn r hr path hpath hsame
  have hsame' : h'.SamePlace r.text path := by
    rwa [Host.SamePlace, hd.place?_eq, hd.place?_eq]
  obtain ⟨content, hread, hscript⟩ := exists_read_of_writtenAfter hcopies hstage hn hr hpath hsame
  obtain ⟨content', hread', hscript'⟩ := exists_read_of_writtenAfter hcopies hstage' hn hr hpath hsame'
  have hstaged : h'.read (scriptPath out n) = .ok content := read_scriptPath_of_wrote hw hp hscript
  have hstaged' : h'.read (scriptPath out n) = .ok content' :=
    (Host.read_withLog h' log _).symm.trans (read_scriptPath_of_wrote hw' hp' hscript')
  obtain rfl : content = content' := Except.ok.inj (hstaged.symm.trans hstaged')
  obtain ⟨bytes, hbytes⟩ := exists_read_of_wrote hcopies hstage hw hp hpath
  exact ⟨content, hread, Host.eq_of_read_of_samePlace hsame' hread' hbytes ▸ hbytes⟩

end

/-- Whatever calls made an image and whatever machine it is converted on: a second conversion after
one that returned leaves everything as the first one left it, and returns the same path, exactly if
each reference finds again what it found. That it does if no reference leads to a file in the output
directory. -/
theorem convert_again_iff {k : ImageKind} {cs : List BuilderCall} {i : Image}
    {service out path : String} {h h' : Host} (hbuild : (k.image .default).calls cs = .ok i)
    (hrun : (convert i.contract service out).on h = (.ok path, h')) :
    (ReadsOutside out (Outline.ofCalls cs).sources (prepared i.contract out h) →
      ∃ log, (convert i.contract service out).on h' = (.ok path, { h' with log := log })) ∧
    ((∃ log, (convert i.contract service out).on h' = (.ok path, { h' with log := log })) ↔
      FindsAgain out (Outline.ofCalls cs).sources (prepared i.contract out h) h') := by
  have hcopies := Image.copies_of_calls hbuild
  generalize (Outline.ofCalls cs).sources = scripts at hcopies
  generalize i.contract = c at hcopies hrun
  refine ⟨fun houtside => ?_, fun ⟨log, hagain⟩ => findsAgain_of_on_convert hcopies hrun hagain,
    on_convert_of_findsAgain hcopies hrun⟩
  obtain ⟨mounts, h₁, place, text, hstage, -⟩ := on_convert_eq_ok hrun
  exact on_convert_of_findsAgain hcopies hrun (findsAgain_of_readsOutside hcopies hstage houtside)

/-- A reference that leads over the output directory to a file beside it. -/
theorem convert_again_beside :
    let h : Host :=
      { files := ⟨[(["tmp"], .directory), (["tmp", "out"], .directory),
          (["tmp", "out", "docker-compose.yml"], .file "version: old".toUTF8),
          (["tmp", "seed.sql"], .file "SELECT 2;".toUTF8)]⟩
        workingDirectory := ["tmp"]
        environment := []
        log := [] }
    let r := Files.Reference.ofText "out/initdb/../../seed.sql"
    let cs : List BuilderCall := [.initSql (.text "SELECT 1;"), .initSql (.path r)]
    ∃ i h', (ImageKind.postgis.image .default).calls cs = .ok i ∧
      (convert i.contract "db" "out").on h = (.ok "out/docker-compose.yml", h') ∧
      ReadsOutside "out" (Outline.ofCalls cs).sources (prepared i.contract "out" h) ∧
      ∃ log, (convert i.contract "db" "out").on h' =
        (.ok "out/docker-compose.yml", { h' with log := log }) := by
  intro h r cs
  let i : Image := .postgis ⟨Postgres.defaultEnv,
    [⟨scriptTarget 0, .inline "SELECT 1;".toUTF8⟩, ⟨scriptTarget 1, .reference r⟩], false⟩
  have hbuild : (ImageKind.postgis.image .default).calls cs = .ok i := rfl
  have hrun : (convert i.contract "db" "out").on h = (.ok "out/docker-compose.yml", _) :=
    Files.Action.on_eq_of_toOption (by decide +kernel)
  have hseed : (prepared i.contract "out" h).place? r.text = some ["tmp", "seed.sql"] := by
    decide +kernel
  have hout : ((prepared i.contract "out" h).files.walk ((prepared i.contract "out" h).start "out")
      (steps "out")).toOption = some ["tmp", "out"] := by decide +kernel
  have houtside : ReadsOutside "out" (Outline.ofCalls cs).sources (prepared i.contract "out" h) := by
    rintro r' hr l bytes hl - ⟨dir, hdir, hbelow⟩
    obtain rfl : r' = r := by
      simpa [Outline.ofCalls, cs, Source.ofValue, Except.toOption] using hr
    obtain rfl : l = ["tmp", "seed.sql"] := Option.some.inj (hl.symm.trans hseed)
    rw [hdir] at hout
    obtain rfl : dir = ["tmp", "out"] := Option.some.inj hout
    exact absurd hbelow (by decide)
  exact ⟨i, _, hbuild, hrun, houtside, (convert_again_iff hbuild hrun).1 houtside⟩

end Compose
end DbImage
