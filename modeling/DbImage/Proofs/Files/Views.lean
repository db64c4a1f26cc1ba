import DbImage.Proofs.Files.Standing

/-!
# What an action looks at

`LooksOnlyAt` says of an action at which files it looks, with its frame in the same statement: on
machines that show the same at these paths it has one result and one log, and nothing else of them
changes.  A machine shows at a path what comes of reading it; what stands there can be told from that
(`find?_eq_entryOfRead?`), and so can whether it is a file or a directory.
-/

namespace DbImage
namespace Files

/-! ## What reading tells of a path -/

theorem Tree.enter_ne_isDirectory (t : Tree) (here : Location) (step : String) :
    t.enter here step ≠ .error .isDirectory := by
  intro he
  rw [Tree.enter] at he
  split at he
  · cases he
  split at he
  · cases he
  split at he
  · cases he
  split at he <;> cases he

theorem Tree.walk_ne_isDirectory (t : Tree) (here : Location) (ss : List String) :
    t.walk here ss ≠ .error .isDirectory := by
  intro he
  induction ss generalizing here with
  | nil => cases he
  | cons step rest ih =>
    rw [Tree.walk] at he
    cases henter : t.enter here step with
    | ok there =>
      rw [henter] at he
      exact ih there he
    | error e =>
      rw [henter] at he
      exact t.enter_ne_isDirectory here step (henter.trans he)

namespace Host

variable {h k : Host} {path : String}

theorem locate_ne_isDirectory (h : Host) (path : String) : h.locate path ≠ .error .isDirectory := by
  intro he
  rw [locate] at he
  split at he
  · cases he
  split at he
  · cases he
  dsimp only at he
  split at he
  · cases he
  split at he
  · rename_i e hwalk
    cases he
    exact h.files.walk_ne_isDirectory _ _ hwalk
  split at he
  · cases he
  split at he <;> cases he

theorem status_ne_isDirectory (h : Host) (path : String) : h.status path ≠ .error .isDirectory := by
  intro he
  rw [status] at he
  split at he
  · rename_i e hlocate
    cases he
    exact h.locate_ne_isDirectory path hlocate
  · cases he
  split at he
  · cases he
  split at he
  · cases he
  · cases he
  · split at he <;> cases he

/-- What is at a path, from what comes of reading it. -/
def entryOfRead? : Except Fault ByteArray → Option Entry
  | .ok bytes => some (.file bytes)
  | .error (.refused ⟨.isDirectory, _⟩) => some .directory
  | .error _ => none

theorem find?_eq_entryOfRead? (h : Host) (path : String) :
    h.find? path = entryOfRead? (h.read path) := by
  rw [find?, read]
  split
  · rfl
  cases hstatus : h.status path with
  | ok e => cases e <;> rfl
  | error reason =>
    cases reason with
    | isDirectory => exact absurd hstatus (h.status_ne_isDirectory path)
    | _ => rfl

theorem find?_congr (hread : h.read path = k.read path) : h.find? path = k.find? path := by
  rw [find?_eq_entryOfRead?, find?_eq_entryOfRead?, hread]

theorem isFile_congr (hread : h.read path = k.read path) : h.isFile path = k.isFile path := by
  rw [isFile, isFile, find?_congr hread]

theorem isDirectory_congr (hread : h.read path = k.read path) :
    h.isDirectory path = k.isDirectory path := by
  rw [isDirectory, isDirectory, find?_congr hread]

theorem isDirectory_of_sameDirectories (hd : SameDirectories h k) (hdir : h.isDirectory path = true) :
    k.isDirectory path = true := by
  obtain ⟨hnul, hstatus⟩ := isDirectory_iff.mp hdir
  obtain ⟨hne, hsize, l, hwalk⟩ := status_eq_directory_iff.mp hstatus
  refine isDirectory_iff.mpr ⟨hnul, status_eq_directory_iff.mpr ⟨hne, hsize, l, ?_⟩⟩
  rw [start, hd.workingDirectory]
  exact Tree.walk_mono (fun l => (hd.directory l).mpr) hwalk

theorem isDirectory_eq_of_sameDirectories (hd : SameDirectories h k) (path : String) :
    h.isDirectory path = k.isDirectory path :=
  Bool.eq_iff_iff.mpr
    ⟨isDirectory_of_sameDirectories hd, isDirectory_of_sameDirectories hd.symm⟩

end Host

/-! ## Actions that look at some files only -/

/-- The two machines show the same, as far as the files at these paths are concerned. -/
structure SameView (paths : List String) (h k : Host) : Prop where
  workingDirectory : h.workingDirectory = k.workingDirectory
  environment : h.environment = k.environment
  log : h.log = k.log
  read : ∀ path ∈ paths, h.read path = k.read path

namespace Action

variable {α β : Type} {paths : List String}

/-- Where machines show the same at these paths, one result comes of the action and one log, and
nothing else changes. -/
def LooksOnlyAt (paths : List String) (x : Action α) : Prop :=
  ∀ h k, SameView paths h k →
    ∃ r log, x.on h = (r, { h with log := log }) ∧ x.on k = (r, { k with log := log })

theorem LooksOnlyAt.ofExcept (r : Except Failure α) :
    LooksOnlyAt paths (MonadExcept.ofExcept r : Action α) := by
  intro h k hview
  refine ⟨r, h.log, on_ofExcept r h, ?_⟩
  rw [hview.log]
  exact on_ofExcept r k

theorem LooksOnlyAt.pure (a : α) : LooksOnlyAt paths (pure a : Action α) :=
  LooksOnlyAt.ofExcept (.ok a)

theorem LooksOnlyAt.throw (e : Failure) : LooksOnlyAt paths (throw e : Action α) :=
  LooksOnlyAt.ofExcept (.error e)

theorem LooksOnlyAt.record (e : Event) : LooksOnlyAt paths (record e) := by
  intro h k hview
  refine ⟨.ok (), h.log ++ [e], on_record e h, ?_⟩
  rw [hview.log]
  exact on_record e k

theorem LooksOnlyAt.bind {x : Action α} {f : α → Action β} (hx : LooksOnlyAt paths x)
    (hf : ∀ a, LooksOnlyAt paths (f a)) : LooksOnlyAt paths (x >>= f) := by
  intro h k hview
  obtain ⟨r, log, hh, hk⟩ := hx h k hview
  rw [on_bind, on_bind, hh, hk]
  cases r with
  | error e => exact ⟨.error e, log, rfl, rfl⟩
  | ok a => exact hf a _ _ ⟨hview.workingDirectory, hview.environment, rfl, hview.read⟩

/-- What is done with the machine itself must be the same for both. -/
theorem LooksOnlyAt.get_bind {f : Host → Action α}
    (heq : ∀ h k, SameView paths h k → f h = f k) (hf : ∀ h, LooksOnlyAt paths (f h)) :
    LooksOnlyAt paths (get >>= f) := by
  intro h k hview
  rw [on_bind, on_bind, on_get, on_get]
  dsimp only
  rw [← heq h k hview]
  exact hf h h k hview

theorem LooksOnlyAt.forIn {f : α → PUnit → Action (ForInStep PUnit)}
    (hf : ∀ a u, LooksOnlyAt paths (f a u)) (as : List α) (u : PUnit) :
    LooksOnlyAt paths (forIn as u f) := by
  induction as generalizing u with
  | nil => exact LooksOnlyAt.pure u
  | cons a as ih =>
    rw [List.forIn_cons]
    refine (hf a u).bind fun turn => ?_
    cases turn with
    | done u => exact LooksOnlyAt.pure u
    | yield u => exact ih u

end Action
end Files
end DbImage
