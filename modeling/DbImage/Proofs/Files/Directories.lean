import DbImage.Proofs.Files.Action
import DbImage.Proofs.Files.Place

/-!
# Making directories

Making a directory with those above it, whether it succeeds or not, only adds directories.  Where the
path has no step upwards, each of them lies on the way that the path goes.  What fails is an operation
on files.
-/

namespace DbImage
namespace Files

/-- A place that a path from `from` passes or ends at.  Nothing is said of a path with a step
upwards, which also passes places that it does not stay below. -/
def OnTheWay (working : Location) (path : String) (l : Location) : Prop :=
  ".." ∉ steps path →
    l <+: (if startsAtRoot path then [] else working) ++ (steps path).filter (· ≠ ".")

/-- Directories were added at places with the property `P` where nothing was, and nothing else
happened to the files. -/
structure AddsDirectories (P : Location → Prop) (h h' : Host) : Prop where
  workingDirectory : h'.workingDirectory = h.workingDirectory
  files : ∀ l, h'.files.get? l = h.files.get? l ∨
    h.files.get? l = none ∧ h'.files.get? l = some .directory ∧ P l

namespace AddsDirectories

variable {P Q : Location → Prop} {h h' h'' : Host}

theorem refl (h : Host) : AddsDirectories P h h := ⟨rfl, fun _ => Or.inl rfl⟩

theorem trans (ha : AddsDirectories P h h') (ha' : AddsDirectories P h' h'') :
    AddsDirectories P h h'' := by
  refine ⟨ha'.workingDirectory.trans ha.workingDirectory, fun l => ?_⟩
  rcases ha'.files l with he | ⟨hnone, hdir, hl⟩
  · rw [he]
    exact ha.files l
  · rcases ha.files l with he' | ⟨-, hdir', -⟩
    · exact Or.inr ⟨he' ▸ hnone, hdir, hl⟩
    · rw [hnone] at hdir'
      cases hdir'

theorem mono (hPQ : ∀ l, P l → Q l) (ha : AddsDirectories P h h') : AddsDirectories Q h h' :=
  ⟨ha.workingDirectory, fun l => (ha.files l).imp_right fun ⟨hn, hd, hl⟩ => ⟨hn, hd, hPQ l hl⟩⟩

theorem put_directory {l : Location} (hl : l ≠ []) (hnone : h.files.get? l = none) (hP : P l) :
    AddsDirectories P h (h.put l .directory) := by
  refine ⟨rfl, fun k => ?_⟩
  rw [Host.files_put, Tree.get?_set _ _ _ _ hl]
  by_cases hk : k = l
  · subst hk
    exact Or.inr ⟨hnone, if_pos rfl, hP⟩
  · exact Or.inl (if_neg hk)

end AddsDirectories

theorem Host.vacant_eq_ok {h : Host} {path : String} {l : Location} (hv : h.vacant path = .ok l) :
    ∃ here name slash, h.locate path = .ok (.child here name slash) ∧ l = here ++ [name] ∧
      h.files.get? l = none := by
  unfold Host.vacant at hv
  split at hv
  · cases hv
  unfold refusing at hv
  split at hv
  · rename_i hv'
    split at hv'
    · cases hv'
    · cases hv'
    rename_i here name slash hl
    split at hv'
    · cases hv'
    split at hv'
    · cases hv'
    rename_i hget
    cases hv
    cases hv'
    exact ⟨here, name, slash, hl, rfl, hget⟩
  · cases hv

theorem onTheWay_of_vacant {h : Host} {path : String} {l : Location}
    (hv : h.vacant path = .ok l) : OnTheWay h.workingDirectory path l := by
  intro habove
  obtain ⟨here, name, slash, hl, rfl, -⟩ := Host.vacant_eq_ok hv
  obtain ⟨hlast, hwalk, hhere, -, -⟩ := Host.locate_eq_child hl
  have hsteps : steps path = (steps path).dropLast ++ [name] := by
    obtain ⟨front, hfront⟩ := List.getLast?_eq_some_iff.mp hlast
    rw [hfront, List.dropLast_concat]
  have hnot : ".." ∉ (steps path).dropLast := fun hm => habove (List.dropLast_subset _ hm)
  have hwhere := Tree.walk_eq_ok_of_not_above hwalk hnot
  rw [hsteps, List.filter_append, ← List.append_assoc, hwhere,
    List.filter_cons_of_pos (by simpa using hhere)]
  exact List.prefix_rfl

/-- The way to the path above is part of the way. -/
theorem OnTheWay.of_dirName {working : Location} {path : String} {l : Location}
    (hne : dirName path ≠ "") (hl : OnTheWay working (dirName path) l) :
    OnTheWay working path l := by
  intro habove
  have hsteps := steps_dirName_prefix path
  have hup := hl fun hm => habove (hsteps.subset hm)
  rw [startsAtRoot_dirName hne] at hup
  exact hup.trans ((List.prefix_append_right_inj _).mpr (hsteps.filter _))

/-- The way to a path is part of the way to a name below it. -/
theorem OnTheWay.join {working : Location} {base name : String} {l : Location}
    (hname : IsName name) (hl : OnTheWay working base l) : OnTheWay working (join base name) l := by
  intro habove
  rw [steps_join base hname, List.mem_append, not_or] at habove
  have hup := hl habove.1
  rw [startsAtRoot_join base hname, steps_join base hname, List.filter_append, ← List.append_assoc]
  exact hup.trans (List.prefix_append _ _)

/-- The way to a name does not pass the place of another name in the same directory. -/
theorem not_onTheWay_join {h : Host} {base name other : String} {l : Location}
    (hname : IsName name) (hother : IsName other) (hne : other ≠ name)
    (habove : ".." ∉ steps base) (hp : h.place? (Files.join base other) = some l) :
    ¬ OnTheWay h.workingDirectory (Files.join base name) l := by
  intro hl
  have hup := hl (by simpa [steps_join base hname, habove] using hname.ne_above.symm)
  rw [startsAtRoot_join base hname, steps_join base hname, List.filter_append, ← List.append_assoc,
    Host.place?_join_of_not_above hother habove hp, Host.start, List.prefix_append_right_inj] at hup
  simp [hname.ne_here, hne] at hup

namespace Action

theorem splitLast_above (path : String) :
    (splitLast path).1 = dirName path ∨ (splitLast path).1 = dirName (dirName path) := by
  unfold splitLast
  dsimp only
  split
  · exact Or.inr rfl
  · exact Or.inl rfl

theorem onTheWay_of_splitLast {working : Location} {path : String} {l : Location}
    (hne : (splitLast path).1 ≠ "") (hl : OnTheWay working (splitLast path).1 l) :
    OnTheWay working path l := by
  rcases splitLast_above path with he | he
  · rw [he] at hne hl
    exact hl.of_dirName hne
  · rw [he] at hne hl
    have hne' : dirName path ≠ "" := by
      intro e
      rw [e] at hne
      exact hne rfl
    exact (hl.of_dirName hne).of_dirName hne'

/-- The action only adds directories, also when it fails. -/
def OnlyAdds {α : Type} (working : Location) (P : Location → Prop) (x : Action α) : Prop :=
  ∀ h : Host, h.workingDirectory = working → AddsDirectories P h (x.on h).2

section

variable {α β : Type} {working : Location} {P : Location → Prop}

theorem OnlyAdds.pure (a : α) : OnlyAdds working P (pure a : Action α) :=
  fun h _ => AddsDirectories.refl h

theorem OnlyAdds.throw (e : Failure) : OnlyAdds working P (throw e : Action α) :=
  fun h _ => AddsDirectories.refl h

theorem OnlyAdds.bind {x : Action α} {f : α → Action β} (hx : OnlyAdds working P x)
    (hf : ∀ a, OnlyAdds working P (f a)) : OnlyAdds working P (x >>= f) := by
  intro h hw
  have ha := hx h hw
  rw [on_bind]
  rcases hrun : x.on h with ⟨_ | a, h₁⟩
  · simpa [hrun] using ha
  · rw [hrun] at ha
    exact ha.trans (hf a h₁ (ha.workingDirectory.trans hw))

theorem OnlyAdds.tryCatch {x : Action α} {f : Failure → Action α} (hx : OnlyAdds working P x)
    (hf : ∀ e, OnlyAdds working P (f e)) : OnlyAdds working P (tryCatch x f) := by
  intro h hw
  have ha := hx h hw
  rw [on_tryCatch]
  rcases hx' : x.on h with ⟨e | a, h₁⟩
  · rw [hx'] at ha
    exact ha.trans (hf e h₁ (ha.workingDirectory.trans hw))
  · simpa [hx'] using ha

theorem OnlyAdds.mono {Q : Location → Prop} (hPQ : ∀ l, P l → Q l) {x : Action α}
    (hx : OnlyAdds working P x) : OnlyAdds working Q x :=
  fun h hw => (hx h hw).mono hPQ

end

theorem onlyAdds_ensureDirectory (working : Location) (path : String) :
    OnlyAdds working (OnTheWay working path) (ensureDirectory path) := by
  rintro h rfl
  rw [ensureDirectory, on_bind, on_get]
  dsimp only
  split
  · rename_i l hv
    obtain ⟨here, name, slash, -, hl, hnone⟩ := Host.vacant_eq_ok hv
    exact AddsDirectories.put_directory (by simp [hl]) hnone (onTheWay_of_vacant hv)
  · exact AddsDirectories.refl h
  · split <;> exact AddsDirectories.refl h

theorem onlyAdds_ensureDirectoriesWithin (working : Location) (depth : Nat) (path : String) :
    OnlyAdds working (OnTheWay working path) (ensureDirectoriesWithin depth path) := by
  induction depth generalizing path with
  | zero => exact onlyAdds_ensureDirectory working path
  | succ depth ih =>
    rw [ensureDirectoriesWithin]
    dsimp only
    refine OnlyAdds.bind (fun h _ => AddsDirectories.refl h) fun h => ?_
    split
    · rename_i hmissing
      have hne : (splitLast path).1 ≠ "" := by
        intro e
        simp [e] at hmissing
      have habove : OnlyAdds working (OnTheWay working path)
          (ensureDirectoriesWithin depth (splitLast path).1) :=
        (ih _).mono fun l hl => onTheWay_of_splitLast hne hl
      refine OnlyAdds.bind (habove.tryCatch fun e => ?_) fun _ => ?_
      · split
        · exact OnlyAdds.pure ()
        · exact OnlyAdds.throw e
      · split
        · exact OnlyAdds.pure ()
        · exact onlyAdds_ensureDirectory working path
    · exact onlyAdds_ensureDirectory working path

/-- Whatever it meets, making a directory adds directories on the way there and changes nothing
else. -/
theorem addsDirectories_ensureDirectories (path : String) (h : Host) :
    AddsDirectories (OnTheWay h.workingDirectory path) h ((ensureDirectories path).on h).2 :=
  onlyAdds_ensureDirectoriesWithin _ _ _ h rfl

/-! ## Failures -/

section

variable {α β : Type}

/-- What fails here fails because of a path that an operation on files does not take. -/
def FailsWithFault (x : Action α) : Prop :=
  ∀ h e h', x.on h = (.error e, h') → ∃ fault, e = .ofFault fault

namespace FailsWithFault

theorem pure (a : α) : FailsWithFault (pure a : Action α) := fun _ _ _ hrun => nomatch hrun

theorem throw (fault : Fault) : FailsWithFault (throw (.ofFault fault) : Action α) := by
  intro h e h' hrun
  rw [on_throw, Prod.mk.injEq, Except.error.injEq] at hrun
  exact ⟨fault, hrun.1.symm⟩

theorem bind {x : Action α} {f : α → Action β} (hx : FailsWithFault x)
    (hf : ∀ a, FailsWithFault (f a)) : FailsWithFault (x >>= f) := by
  intro h e h' hrun
  rcases on_bind_eq_error.mp hrun with hx' | ⟨a, h₁, -, hrun⟩
  · exact hx h e h' hx'
  · exact hf a h₁ e h' hrun

/-- The handler may put another failure in the place of the one it caught. -/
theorem tryCatch {x : Action α} {f : Failure → Action α} (hx : FailsWithFault x)
    (hf : ∀ fault, FailsWithFault (f (.ofFault fault))) : FailsWithFault (tryCatch x f) := by
  intro h e h' hrun
  rw [on_tryCatch] at hrun
  rcases hx' : x.on h with ⟨e₀ | a, h₁⟩
  · rw [hx'] at hrun
    obtain ⟨fault, rfl⟩ := hx h e₀ h₁ hx'
    exact hf fault h₁ e h' hrun
  · rw [hx'] at hrun
    cases hrun

end FailsWithFault

theorem failsWithFault_ensureDirectory (path : String) : FailsWithFault (ensureDirectory path) := by
  refine FailsWithFault.bind (fun _ _ _ hrun => nomatch hrun) fun h => ?_
  split
  · exact fun _ _ _ hrun => nomatch hrun
  · exact FailsWithFault.throw .nulInPath
  · rename_i refusal _
    split
    · exact FailsWithFault.pure ()
    · exact FailsWithFault.throw (.refused refusal)

theorem failsWithFault_ensureDirectoriesWithin (depth : Nat) (path : String) :
    FailsWithFault (ensureDirectoriesWithin depth path) := by
  induction depth generalizing path with
  | zero => exact failsWithFault_ensureDirectory path
  | succ depth ih =>
    rw [ensureDirectoriesWithin]
    dsimp only
    refine FailsWithFault.bind (fun _ _ _ hrun => nomatch hrun) fun h => ?_
    split
    · refine FailsWithFault.bind ((ih _).tryCatch fun fault => ?_) fun _ => ?_
      · split
        · exact FailsWithFault.pure ()
        · exact FailsWithFault.throw fault
      · split
        · exact FailsWithFault.pure ()
        · exact failsWithFault_ensureDirectory path
    · exact failsWithFault_ensureDirectory path

end

end Action
end Files
end DbImage
