import DbImage.Proofs.Compose.Staged
import DbImage.Proofs.Files.Writes

/-!
# Staging, one item after the other

An item's file is opened, which empties it, then the item's source is read and then the file is
written.  So a source is read after the items before it have been written and before those after it
are: `exists_turn`.  Whether staging succeeds or not, nothing but the files of the items is written:
`writesFiles_stageItems`.
-/

namespace DbImage

open Files (Action Host IsName Location SameDirectories WritesFiles baseName join)

namespace Compose

variable {directory : String} {item : StagedItem} {items before after : List StagedItem}
  {h h₁ h' : Host} {l place : Location} {content : ByteArray}

/-- A place that one of the items is staged at, under the name that its target ends in. -/
def IsDestination (directory : String) (items : List StagedItem) (h : Host) (l : Location) : Prop :=
  ∃ item ∈ items, IsName (baseName item.target) ∧ h.place? (stagedPath directory item) = some l

theorem isDestination_iff_of_sameDirectories (hd : SameDirectories h h') :
    IsDestination directory items h' l ↔ IsDestination directory items h l := by
  simp only [IsDestination, hd.place?_eq]

theorem IsDestination.of_subset (hsub : before ⊆ items) (hl : IsDestination directory before h l) :
    IsDestination directory items h l := by
  obtain ⟨item, hitem, hplace⟩ := hl
  exact ⟨item, hsub hitem, hplace⟩

theorem isName_of_writable_stagedPath (hw : h.writable (stagedPath directory item) = .ok place) :
    IsName (baseName item.target) :=
  Host.isName_of_writable_join (Files.slash_not_mem_baseName _) hw

/-- Different names go to different places. -/
theorem not_isDestination_of_name (hitem : IsName (baseName item.target))
    (hplace : h.place? (stagedPath directory item) = some l)
    (hne : ∀ other ∈ items, baseName other.target ≠ baseName item.target) :
    ¬ IsDestination directory items h l := by
  intro hl
  obtain ⟨other, hother, hname, hplace'⟩ := hl
  exact hne other hother (Host.eq_of_samePlace_join hname hitem ⟨l, hplace', hplace⟩)

/-! ## Every outcome -/

/-- Staging an item leaves the machine as it was if the file cannot be opened, and else with the file
written, be it with nothing. -/
theorem on_stageItem_cases (directory : String) (item : StagedItem) (h : Host) :
    ((stageItem directory item).on h).2 = h ∨
      ∃ place content, h.writable (stagedPath directory item) = .ok place ∧
        Host.Wrote place content h ((stageItem directory item).on h).2 := by
  rcases hrun : (stageItem directory item).on h with ⟨e | mount, h'⟩
  · rcases on_stageItem_eq_error hrun with ⟨fault, -, -, rfl⟩ | ⟨place, hw, -, hp⟩
    · exact Or.inl rfl
    · exact Or.inr ⟨place, .empty, hw, hp⟩
  · obtain ⟨place, content, hw, -, hp, -⟩ := on_stageItem_eq_ok hrun
    exact Or.inr ⟨place, content, hw, hp⟩

theorem writesFiles_stageItem (directory : String) (item : StagedItem) (h : Host) :
    WritesFiles (IsDestination directory [item] h) h ((stageItem directory item).on h).2 := by
  rcases on_stageItem_cases directory item h with he | ⟨place, content, hw, hp⟩
  · rw [he]
    exact WritesFiles.refl h
  · exact (WritesFiles.of_wrote hp hw).mono fun l hl =>
      ⟨item, List.mem_cons_self, isName_of_writable_stagedPath hw, hl⟩

theorem writesFiles_stageItems (directory : String) (items : List StagedItem) (h : Host) :
    WritesFiles (IsDestination directory items h) h ((stageItems directory items).on h).2 := by
  induction items generalizing h with
  | nil => exact WritesFiles.refl h
  | cons item rest ih =>
    have hitem := writesFiles_stageItem directory item h
    have hfirst : WritesFiles (IsDestination directory (item :: rest) h) h
        ((stageItem directory item).on h).2 :=
      hitem.mono fun l => IsDestination.of_subset (by simp)
    rw [stageItems, Action.on_bind]
    rcases hrun : (stageItem directory item).on h with ⟨e | mount, h₁⟩
    · rwa [hrun] at hfirst
    · rw [hrun] at hfirst hitem
      have hrest := ih h₁
      have hlater : WritesFiles (IsDestination directory (item :: rest) h) h₁
          ((stageItems directory rest).on h₁).2 := by
        refine hrest.mono fun l hl => ?_
        rw [isDestination_iff_of_sameDirectories hitem.sameDirectories] at hl
        exact hl.of_subset (List.subset_cons_self _ _)
      dsimp only
      rw [Action.on_bind]
      rcases hrun' : (stageItems directory rest).on h₁ with ⟨e | mounts, h₂⟩
      · rw [hrun'] at hlater
        exact hfirst.trans hlater
      · rw [hrun'] at hlater
        exact hfirst.trans hlater

/-! ## A run that succeeds -/

theorem mounts_of_stageItems {mounts : List Mount}
    (hrun : (stageItems directory items).on h = (.ok mounts, h')) :
    mounts = items.map mountOf := by
  induction items generalizing h mounts with
  | nil =>
    obtain ⟨rfl, -⟩ : [] = mounts ∧ h = h' := by simpa [stageItems] using hrun
    rfl
  | cons item rest ih =>
    obtain ⟨-, -, h₁, others, -, -, -, hrest, rfl⟩ := on_stageItems_cons_eq_ok hrun
    rw [ih hrest, List.map_cons]

/-- One item among others: the machine `h₁` on which its turn comes, the place that it is staged at
and the content that it is staged with. -/
structure Turn (directory : String) (before : List StagedItem) (item : StagedItem)
    (after : List StagedItem) (place : Location) (content : ByteArray) (h h₁ h' : Host) :
    Prop where
  before : WritesFiles (IsDestination directory before h) h h₁
  writable : h₁.writable (stagedPath directory item) = .ok place
  read : item.source.content (h₁.put place (.file .empty)) = .ok content
  after : ∃ h₂, Host.Wrote place content h₁ h₂ ∧
    WritesFiles (IsDestination directory after h) h₂ h'

/-- In a run that succeeds every item has its turn. -/
theorem exists_turn {mounts : List Mount}
    (hrun : (stageItems directory (before ++ item :: after)).on h = (.ok mounts, h')) :
    ∃ place content h₁, Turn directory before item after place content h h₁ h' := by
  induction before generalizing h mounts with
  | nil =>
    obtain ⟨place, content, h₁, others, hw, hc, hp, hrest, -⟩ := on_stageItems_cons_eq_ok hrun
    refine ⟨place, content, h, WritesFiles.refl h, hw, hc, h₁, hp, ?_⟩
    have hafter := writesFiles_stageItems directory after h₁
    rw [hrest] at hafter
    exact hafter.mono fun l hl =>
      (isDestination_iff_of_sameDirectories (hp.sameDirectories hw)).mp hl
  | cons first before ih =>
    obtain ⟨place₀, content₀, h₀, others, hw, -, hp, hrest, -⟩ := on_stageItems_cons_eq_ok hrun
    obtain ⟨place, content, h₁, hturn⟩ := ih hrest
    have hd := hp.sameDirectories hw
    have hfirst : WritesFiles (IsDestination directory (first :: before) h) h h₀ :=
      (WritesFiles.of_wrote hp hw).mono fun l hl =>
        ⟨first, List.mem_cons_self, isName_of_writable_stagedPath hw, hl⟩
    refine ⟨place, content, h₁, hfirst.trans (hturn.before.mono fun l hl => ?_), hturn.writable,
      hturn.read, ?_⟩
    · rw [isDestination_iff_of_sameDirectories hd] at hl
      exact hl.of_subset (List.subset_cons_self _ _)
    · obtain ⟨h₂, hp₂, hafter⟩ := hturn.after
      exact ⟨h₂, hp₂, hafter.mono fun l hl => (isDestination_iff_of_sameDirectories hd).mp hl⟩

namespace Turn

theorem sameDirectories_before (ht : Turn directory before item after place content h h₁ h') :
    SameDirectories h h₁ := ht.before.sameDirectories

theorem sameDirectories_after (ht : Turn directory before item after place content h h₁ h') :
    SameDirectories h₁ h' := by
  obtain ⟨h₂, hp, hafter⟩ := ht.after
  exact (hp.sameDirectories ht.writable).trans hafter.sameDirectories

theorem sameDirectories_opened (ht : Turn directory before item after place content h h₁ h') :
    SameDirectories h (h₁.put place (.file .empty)) :=
  ht.sameDirectories_before.trans ((Host.wrote_put _ _ _).sameDirectories ht.writable)

theorem place?_eq (ht : Turn directory before item after place content h h₁ h') :
    h.place? (stagedPath directory item) = some place := by
  rw [← ht.sameDirectories_before.place?_eq]
  exact Host.place?_of_writable ht.writable

theorem isName (ht : Turn directory before item after place content h h₁ h') :
    IsName (baseName item.target) :=
  isName_of_writable_stagedPath ht.writable

/-- What is not written later stands in the end as the item has left it. -/
theorem get?_of_not_after (ht : Turn directory before item after place content h h₁ h')
    (hl : ¬ IsDestination directory after h l) :
    h'.files.get? l = (h₁.put place (.file content)).files.get? l := by
  obtain ⟨h₂, hp, hafter⟩ := ht.after
  rw [hafter.others l hl, hp.files, Host.files_put]

/-- An item whose file is not written again is found where it was staged. -/
theorem read_eq (ht : Turn directory before item after place content h h₁ h')
    (hlast : ¬ IsDestination directory after h place) :
    h'.read (stagedPath directory item) = .ok content := by
  refine Host.read_of_writable ht.writable ht.sameDirectories_after ?_
  rw [ht.get?_of_not_after hlast, Host.files_put,
    Files.Tree.get?_set_self _ _ (Host.ne_nil_of_writable ht.writable)]

end Turn

theorem isName_of_stageItems {mounts : List Mount}
    (hrun : (stageItems directory items).on h = (.ok mounts, h')) (hitem : item ∈ items) :
    IsName (baseName item.target) := by
  obtain ⟨before, after, rfl⟩ := List.append_of_mem hitem
  obtain ⟨_, _, _, hturn⟩ := exists_turn hrun
  exact hturn.isName

end Compose
end DbImage
