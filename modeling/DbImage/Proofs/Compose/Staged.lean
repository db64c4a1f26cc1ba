import DbImage.Compose.Staging
import DbImage.Proofs.Files.Action
import DbImage.Proofs.Files.Place

/-!
# Staging files one after the other

Each staged file is written before the next one is read.  Nothing that is read comes from where
something is written, so every read finds what the first machine holds, and no write undoes another:
`staged_stageItems`.
-/

namespace DbImage

open Files (Action Host IsName Location SameDirectories baseName join)

namespace Source

/-- Reading leaves a trace in the log and no other. -/
theorem on_read (s : Source) (h : Host) :
    ∃ log, s.read.on h = (s.content h, { h with log := log }) := by
  cases s with
  | inline content => exact ⟨h.log, rfl⟩
  | reference path =>
    refine ⟨h.log ++ [.readingSource path.text], ?_⟩
    rw [read, Action.on_bind]
    simp only [Action.on_record, Action.on_bind, Action.on_get, Action.on_ofExcept]
    rfl

theorem on_read_eq_ok {s : Source} {h h' : Host} {bytes : ByteArray}
    (hr : s.read.on h = (.ok bytes, h')) :
    s.content h = .ok bytes ∧ h'.workingDirectory = h.workingDirectory ∧ h'.files = h.files := by
  obtain ⟨log, hread⟩ := s.on_read h
  rw [hread, Prod.mk.injEq] at hr
  obtain ⟨hc, rfl⟩ := hr
  exact ⟨hc, rfl, rfl⟩

theorem content_reference_eq_ok {h : Host} {path : Files.Reference} {bytes : ByteArray} :
    (reference path).content h = .ok bytes ↔ h.read path.text = .ok bytes := by
  rw [content_reference, fileContent]
  cases h.read path.text with
  | ok found => simp
  | error fault => cases fault <;> simp

/-- What a source holds after a file was written elsewhere, it held before. -/
theorem content_of_wrote {s : Source} {h h' : Host} {path : String} {l : Location}
    {written bytes : ByteArray} (hw : h.writable path = .ok l) (hp : Host.Wrote l written h h')
    (hapart : ∀ r, s = .reference r → ¬ h.SamePlace r.text path)
    (hc : s.content h' = .ok bytes) : s.content h = .ok bytes := by
  cases s with
  | inline content => exact hc
  | reference r =>
    rw [content_reference_eq_ok] at hc ⊢
    have hd := hp.sameDirectories hw
    refine Host.read_congr hd.symm (fun k hk => ?_) hc
    rw [hd.place?_eq] at hk
    have hkl : k ≠ l := by
      intro e
      subst e
      exact hapart r rfl ⟨k, hk, Host.place?_of_writable hw⟩
    exact (hp.get?_of_ne hkl).symm

end Source

namespace Compose

/-- The path that an item is staged at. -/
def stagedPath (directory : String) (item : StagedItem) : String :=
  join directory (baseName item.target)

/-- The mount of a staged item. -/
def mountOf (item : StagedItem) : Mount :=
  ⟨"./" ++ stagingDirectory ++ "/" ++ baseName item.target, item.target⟩

variable {directory : String} {item : StagedItem} {items : List StagedItem} {h h' : Host}
  {place : Location} {e : Failure}

theorem on_stageItem_eq_ok {mount : Mount}
    (hrun : (stageItem directory item).on h = (.ok mount, h')) :
    ∃ place content, h.writable (stagedPath directory item) = .ok place ∧
      item.source.content (h.put place (.file .empty)) = .ok content ∧
      Host.Wrote place content h h' ∧ mount = mountOf item := by
  rw [stageItem, Action.on_bind_eq_ok] at hrun
  obtain ⟨place, h₁, hopen, hrun⟩ := hrun
  obtain ⟨hw, rfl⟩ := Action.on_openForWriting_eq_ok.mp hopen
  rw [Action.on_bind_eq_ok] at hrun
  obtain ⟨content, h₂, hread, hrun⟩ := hrun
  obtain ⟨hc, hdir, hfiles⟩ := Source.on_read_eq_ok hread
  simp only [Action.on_bind, Action.on_put, Action.on_record, Action.on_pure, Prod.mk.injEq,
    Except.ok.injEq] at hrun
  obtain ⟨rfl, rfl⟩ := hrun
  refine ⟨place, content, hw, hc, ⟨hdir, ?_⟩, rfl⟩
  rw [Host.files_put, hfiles, Host.files_put, Files.Tree.set_set]

/-- An item is not staged if its file cannot be opened, and then nothing happens, or if its source
cannot be read, and then its file is empty. -/
theorem on_stageItem_eq_error (hrun : (stageItem directory item).on h = (.error e, h')) :
    (∃ fault, h.writable (stagedPath directory item) = .error fault ∧ e = .ofFault fault ∧
      h' = h) ∨
    ∃ place, h.writable (stagedPath directory item) = .ok place ∧
      item.source.content (h.put place (.file .empty)) = .error e ∧
      Host.Wrote place .empty h h' := by
  rw [stageItem, Action.on_bind_eq_error] at hrun
  rcases hrun with hopen | ⟨place, h₁, hopen, hrun⟩
  · exact Or.inl (Action.on_openForWriting_eq_error.mp hopen)
  obtain ⟨hw, rfl⟩ := Action.on_openForWriting_eq_ok.mp hopen
  refine Or.inr ⟨place, hw, ?_⟩
  rcases Action.on_bind_eq_error.mp hrun with hread | ⟨content, h₂, -, hrun⟩
  · obtain ⟨log, hlog⟩ := item.source.on_read (h.put place (.file .empty))
    rw [hlog, Prod.mk.injEq] at hread
    obtain ⟨hc, rfl⟩ := hread
    exact ⟨hc, rfl, rfl⟩
  · -- with the content at hand nothing fails any more
    simp only [Action.on_bind, Action.on_put, Action.on_record, Action.on_pure] at hrun
    cases hrun

theorem on_stageItems_cons_eq_ok {mounts : List Mount}
    (hrun : (stageItems directory (item :: items)).on h = (.ok mounts, h')) :
    ∃ place content h₁ others, h.writable (stagedPath directory item) = .ok place ∧
      item.source.content (h.put place (.file .empty)) = .ok content ∧
      Host.Wrote place content h h₁ ∧
      (stageItems directory items).on h₁ = (.ok others, h') ∧ mounts = mountOf item :: others := by
  rw [stageItems, Action.on_bind_eq_ok] at hrun
  obtain ⟨mount, h₁, hitem, hrun⟩ := hrun
  rw [Action.on_bind_eq_ok] at hrun
  obtain ⟨others, h₂, hrest, hrun⟩ := hrun
  obtain ⟨rfl, rfl⟩ : mount :: others = mounts ∧ h₂ = h' := by simpa using hrun
  obtain ⟨place, content, hw, hc, hp, rfl⟩ := on_stageItem_eq_ok hitem
  exact ⟨place, content, h₁, others, hw, hc, hp, hrest, rfl⟩

/-- What staging items leaves behind. -/
structure Staged (directory : String) (items : List StagedItem) (h h' : Host) : Prop where
  sameDirectories : SameDirectories h h'
  content : ∀ item ∈ items, ∃ bytes, item.source.content h = .ok bytes ∧
    h'.read (stagedPath directory item) = .ok bytes
  others : ∀ l, (∀ item ∈ items, h.place? (stagedPath directory item) ≠ some l) →
    h'.files.get? l = h.files.get? l

/-- Items that do not get in one another's way: each goes to a name of its own, and no source is read
where an item goes. -/
structure Apart (directory : String) (items : List StagedItem) (h : Host) : Prop where
  isName : ∀ item ∈ items, IsName (baseName item.target)
  names : items.Pairwise fun a b => baseName a.target ≠ baseName b.target
  sources : ∀ item ∈ items, ∀ r, item.source = .reference r →
    ∀ other ∈ items, ¬ h.SamePlace r.text (stagedPath directory other)

theorem Apart.tail (ha : Apart directory (item :: items) h) (hd : SameDirectories h h') :
    Apart directory items h' := by
  refine ⟨fun i hi => ha.isName i (List.mem_cons_of_mem _ hi), ha.names.tail, ?_⟩
  intro i hi r hr other hother hsame
  refine ha.sources i (List.mem_cons_of_mem _ hi) r hr other (List.mem_cons_of_mem _ hother) ?_
  obtain ⟨l, hl⟩ := hsame
  rw [hd.place?_eq, hd.place?_eq] at hl
  exact ⟨l, hl⟩

/-- One more item in front.  It reads before the others write and stays where they do not go. -/
theorem Staged.cons {h₁ : Host} {place : Location} {written : ByteArray}
    (ha : Apart directory (item :: items) h)
    (hw : h.writable (stagedPath directory item) = .ok place)
    (hc : item.source.content h = .ok written) (hp : Host.Wrote place written h h₁)
    (hs : Staged directory items h₁ h') : Staged directory (item :: items) h h' := by
  have hplace := Host.place?_of_writable hw
  have hd₁ := hp.sameDirectories hw
  have hd := hd₁.trans hs.sameDirectories
  have hkept : h'.files.get? place = some (.file written) := by
    rw [hs.others place fun other hother hsame => ?_, hp.get?_self hw]
    rw [hd₁.place?_eq] at hsame
    exact (List.pairwise_cons.mp ha.names).1 other hother
      (Host.eq_of_samePlace_join (ha.isName item List.mem_cons_self)
        (ha.isName other (List.mem_cons_of_mem _ hother)) ⟨place, hplace, hsame⟩)
  refine ⟨hd, fun i hi => ?_, fun l hl => ?_⟩
  · rcases List.mem_cons.mp hi with rfl | hi
    · exact ⟨written, hc, Host.read_of_writable hw hd hkept⟩
    · obtain ⟨bytes, hbytes, hread⟩ := hs.content i hi
      refine ⟨bytes, Source.content_of_wrote hw hp (fun r hr => ?_) hbytes, hread⟩
      exact ha.sources i (List.mem_cons_of_mem _ hi) r hr item List.mem_cons_self
  · rw [List.forall_mem_cons] at hl
    rw [hs.others l fun other hother => ?_]
    · exact hp.get?_of_ne fun e => hl.1 (e ▸ hplace)
    · rw [hd₁.place?_eq]
      exact hl.2 other hother

/-- Items that stay apart are staged as the machine at the start has them. -/
theorem staged_stageItems (ha : Apart directory items h) {mounts : List Mount}
    (hrun : (stageItems directory items).on h = (.ok mounts, h')) :
    mounts = items.map mountOf ∧ Staged directory items h h' := by
  induction items generalizing h mounts with
  | nil =>
    obtain ⟨rfl, rfl⟩ : [] = mounts ∧ h = h' := by simpa [stageItems] using hrun
    exact ⟨rfl, SameDirectories.refl h, by simp, fun _ _ => rfl⟩
  | cons item rest ih =>
    obtain ⟨place, written, h₁, others, hw, hc, hp, hrest, rfl⟩ := on_stageItems_cons_eq_ok hrun
    -- the destination is emptied before the source is read
    have hempty : Host.Wrote place .empty h (h.put place (.file .empty)) := ⟨rfl, rfl⟩
    have hc' : item.source.content h = .ok written :=
      Source.content_of_wrote hw hempty
        (fun r hr => ha.sources item List.mem_cons_self r hr item List.mem_cons_self) hc
    obtain ⟨rfl, hs⟩ := ih (ha.tail (hp.sameDirectories hw)) hrest
    exact ⟨rfl, hs.cons ha hw hc' hp⟩

end Compose
end DbImage
