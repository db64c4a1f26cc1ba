import DbImage.Files.Host
import DbImage.Proofs.Files.Steps

/-!
# Where a path leads

A path is followed through directories alone.  Two machines with the same directories therefore send
a path to the same place, whatever their files hold, and a file is read as long as its own place is
left alone.
-/

namespace DbImage
namespace Files

/-- The same places are directories, and paths start in the same one of them. -/
structure SameDirectories (h h' : Host) : Prop where
  workingDirectory : h'.workingDirectory = h.workingDirectory
  directory : ∀ l, h'.files.get? l = some .directory ↔ h.files.get? l = some .directory

namespace SameDirectories

variable {h h' h'' : Host}

theorem refl (h : Host) : SameDirectories h h := ⟨rfl, fun _ => Iff.rfl⟩

theorem symm (hd : SameDirectories h h') : SameDirectories h' h :=
  ⟨hd.workingDirectory.symm, fun l => (hd.directory l).symm⟩

theorem trans (hd : SameDirectories h h') (hd' : SameDirectories h' h'') : SameDirectories h h'' :=
  ⟨hd'.workingDirectory.trans hd.workingDirectory,
    fun l => (hd'.directory l).trans (hd.directory l)⟩

end SameDirectories

namespace Tree

theorem enter_eq_ok {t : Tree} {here there : Location} {step : String}
    (h : t.enter here step = .ok there) :
    step = "." ∧ there = here ∨ step = ".." ∧ there = here.dropLast ∨
      step ≠ "." ∧ step ≠ ".." ∧ step.utf8ByteSize ≤ nameLimit ∧
        t.get? (here ++ [step]) = some .directory ∧ there = here ++ [step] := by
  unfold enter at h
  by_cases hhere : step = "."
  · rw [if_pos hhere] at h
    exact Or.inl ⟨hhere, (Except.ok.inj h).symm⟩
  by_cases habove : step = ".."
  · rw [if_neg hhere, if_pos habove] at h
    exact Or.inr (Or.inl ⟨habove, (Except.ok.inj h).symm⟩)
  rw [if_neg hhere, if_neg habove] at h
  by_cases hlong : nameLimit < step.utf8ByteSize
  · simp [hlong] at h
  rw [if_neg hlong] at h
  refine Or.inr (Or.inr ⟨hhere, habove, Nat.le_of_not_lt hlong, ?_⟩)
  cases hget : t.get? (here ++ [step]) with
  | none => simp [hget] at h
  | some e =>
    cases e with
    | directory => exact ⟨rfl, by simpa [hget] using h.symm⟩
    | file content => simp [hget] at h

theorem enter_of_get? {t : Tree} {here : Location} {step : String} (hhere : step ≠ ".")
    (habove : step ≠ "..") (hlong : step.utf8ByteSize ≤ nameLimit)
    (hget : t.get? (here ++ [step]) = some .directory) :
    t.enter here step = .ok (here ++ [step]) := by
  rw [enter, if_neg hhere, if_neg habove, if_neg (Nat.not_lt.mpr hlong), hget]

theorem walk_cons_eq_ok {t : Tree} {here there : Location} {step : String} {rest : List String}
    (h : t.walk here (step :: rest) = .ok there) :
    ∃ next, t.enter here step = .ok next ∧ t.walk next rest = .ok there := by
  rw [walk] at h
  cases he : t.enter here step with
  | ok next => exact ⟨next, rfl, by rwa [he] at h⟩
  | error e => simp [he] at h

theorem walk_cons_of_enter {t : Tree} {here next : Location} {step : String}
    (h : t.enter here step = .ok next) (rest : List String) :
    t.walk here (step :: rest) = t.walk next rest := by
  rw [walk, h]

/-- Directories that one tree has, another may have too, and then a walk through them ends at the same
place. -/
theorem walk_mono {t t' : Tree}
    (hd : ∀ l, t.get? l = some .directory → t'.get? l = some .directory)
    {here there : Location} {all : List String} (h : t.walk here all = .ok there) :
    t'.walk here all = .ok there := by
  induction all generalizing here with
  | nil => exact h
  | cons step rest ih =>
    obtain ⟨next, he, hrest⟩ := walk_cons_eq_ok h
    have he' : t'.enter here step = .ok next := by
      rcases enter_eq_ok he with ⟨rfl, rfl⟩ | ⟨rfl, rfl⟩ | ⟨hhere, habove, hlong, hget, rfl⟩
      · rfl
      · rfl
      · exact enter_of_get? hhere habove hlong (hd _ hget)
    rw [walk_cons_of_enter he']
    exact ih hrest

theorem walk_append_eq_ok {t : Tree} {here there : Location} {all rest : List String}
    (h : t.walk here (all ++ rest) = .ok there) :
    ∃ next, t.walk here all = .ok next ∧ t.walk next rest = .ok there := by
  induction all generalizing here with
  | nil => exact ⟨here, rfl, h⟩
  | cons step all ih =>
    obtain ⟨mid, he, hrest⟩ := walk_cons_eq_ok h
    obtain ⟨next, hall, hthere⟩ := ih hrest
    exact ⟨next, (walk_cons_of_enter he all).trans hall, hthere⟩

/-- Without the step upwards a walk goes down one name after the other. -/
theorem walk_eq_ok_of_not_above {t : Tree} {here there : Location} {all : List String}
    (h : t.walk here all = .ok there) (habove : ".." ∉ all) :
    there = here ++ all.filter (· ≠ ".") := by
  induction all generalizing here with
  | nil => simpa using (Except.ok.inj h).symm
  | cons step rest ih =>
    obtain ⟨next, he, hrest⟩ := walk_cons_eq_ok h
    rw [List.mem_cons, not_or] at habove
    have hthere := ih hrest habove.2
    rcases enter_eq_ok he with ⟨rfl, rfl⟩ | ⟨rfl, -⟩ | ⟨hhere, -, -, -, rfl⟩
    · simpa using hthere
    · exact absurd rfl habove.1
    · rw [hthere, List.append_assoc, List.filter_cons_of_pos (by simpa using hhere)]
      rfl

end Tree

namespace Host

variable {h h' : Host} {path base name : String} {l : Location}

/-- The directory that a path starts from. -/
def start (h : Host) (path : String) : Location :=
  if startsAtRoot path then [] else h.workingDirectory

/-- The place that a path leads to, whether or not something stands there. -/
def place? (h : Host) (path : String) : Option Location :=
  match h.locate path with
  | .ok (.passed l) => some l
  | .ok (.child here name _) => some (here ++ [name])
  | .error _ => none

/-- Two paths that lead to one place. -/
def SamePlace (h : Host) (a b : String) : Prop :=
  ∃ l, h.place? a = some l ∧ h.place? b = some l

/-- A path that ends in a name leads into the directory that its other steps walk to. -/
theorem locate_eq_child {here : Location} {slash : Bool}
    (hl : h.locate path = .ok (.child here name slash)) :
    (steps path).getLast? = some name ∧
      h.files.walk (h.start path) (steps path).dropLast = .ok here ∧
      name ≠ "." ∧ name ≠ ".." ∧ slash = endsInSlash path := by
  unfold locate at hl
  split at hl
  · cases hl
  split at hl
  · cases hl
  dsimp only at hl
  split at hl
  · cases hl
  rename_i last hlast
  split at hl
  · cases hl
  rename_i there hwalk
  split at hl
  · cases hl
  rename_i hhere
  split at hl
  · cases hl
  rename_i habove
  rw [Except.ok.injEq, Destination.child.injEq] at hl
  obtain ⟨rfl, rfl, rfl⟩ := hl
  exact ⟨hlast, hwalk, hhere, habove, rfl⟩

/-- More directories lead no path elsewhere. -/
theorem locate_mono (hw : h'.workingDirectory = h.workingDirectory)
    (hd : ∀ l, h.files.get? l = some .directory → h'.files.get? l = some .directory)
    {d : Destination} (hl : h.locate path = .ok d) : h'.locate path = .ok d := by
  unfold locate at hl ⊢
  rw [hw]
  split at hl
  · cases hl
  rename_i hempty
  split at hl
  · cases hl
  rename_i hlong
  rw [if_neg hempty, if_neg hlong]
  cases hlast : (steps path).getLast? with
  | none => simpa only [hlast] using hl
  | some last =>
    simp only [hlast] at hl ⊢
    cases hwalk : h.files.walk (if startsAtRoot path then [] else h.workingDirectory)
        (steps path).dropLast with
    | error e => simp [hwalk] at hl
    | ok here => simpa only [hwalk, Tree.walk_mono hd hwalk] using hl

theorem place?_mono (hw : h'.workingDirectory = h.workingDirectory)
    (hd : ∀ l, h.files.get? l = some .directory → h'.files.get? l = some .directory)
    (hp : h.place? path = some l) : h'.place? path = some l := by
  unfold place? at hp ⊢
  cases hl : h.locate path with
  | error e => simp [hl] at hp
  | ok d =>
    rw [locate_mono hw hd hl]
    rwa [hl] at hp

end Host

open Host

variable {h h' : Host} {path base name : String} {l : Location}

namespace SameDirectories

theorem locate_eq_ok (hd : SameDirectories h h') {d : Destination}
    (hl : h.locate path = .ok d) : h'.locate path = .ok d :=
  locate_mono hd.workingDirectory (fun l => (hd.directory l).mpr) hl

theorem place?_eq (hd : SameDirectories h h') (path : String) : h'.place? path = h.place? path := by
  refine Option.ext fun l => ⟨fun hp => ?_, fun hp => ?_⟩
  · exact place?_mono hd.symm.workingDirectory (fun l => (hd.directory l).mp) hp
  · exact place?_mono hd.workingDirectory (fun l => (hd.directory l).mpr) hp

end SameDirectories

namespace Host

theorem locate_of_long (hsize : pathLimit < path.utf8ByteSize) :
    h.locate path = .error .nameTooLong := by
  have hempty : path.isEmpty = false := by
    refine Bool.eq_false_iff.mpr fun he => ?_
    rw [String.isEmpty_iff.mp he] at hsize
    exact absurd hsize (by decide)
  rw [locate, hempty, if_neg (by decide), if_pos hsize]

/-- A path that leads anywhere is not too long. -/
theorem size_le_of_place? (hl : h.place? path = some l) : path.utf8ByteSize ≤ pathLimit := by
  refine Nat.le_of_not_lt fun hlong => ?_
  rw [place?, locate_of_long hlong] at hl
  cases hl

/-! ## Reading -/

/-- A path names a file when it leads to the file's place and has no slash at its end. -/
theorem status_eq_file_iff {bytes : ByteArray} :
    h.status path = .ok (.file bytes) ↔
      ∃ here name, h.locate path = .ok (.child here name false) ∧
        name.utf8ByteSize ≤ nameLimit ∧ h.files.get? (here ++ [name]) = some (.file bytes) := by
  constructor
  · intro hs
    unfold status at hs
    split at hs
    · cases hs
    · cases hs
    rename_i here name slash hl
    split at hs
    · cases hs
    rename_i hlong
    split at hs
    · cases hs
    · cases hs
    rename_i content hget
    cases slash with
    | true => cases hs
    | false =>
      obtain rfl : content = bytes := by simpa using hs
      exact ⟨here, name, hl, Nat.le_of_not_lt hlong, hget⟩
  · intro h
    obtain ⟨here, name, hl, hle, hget⟩ := h
    rw [status, hl]
    simp [Nat.not_lt.mpr hle, hget]

theorem read_eq_ok_iff {bytes : ByteArray} :
    h.read path = .ok bytes ↔ holdsNul path = false ∧ h.status path = .ok (.file bytes) := by
  unfold read
  cases holdsNul path with
  | true => simp
  | false =>
    cases hs : h.status path with
    | error e => simp [refusing]
    | ok e => cases e <;> simp [refusing]

/-- A path without U+0000 is refused where it cannot be read. -/
theorem exists_read_eq_refused_iff :
    (∃ refusal, h.read path = .error (.refused refusal)) ↔
      holdsNul path = false ∧ ∀ bytes, h.read path ≠ .ok bytes := by
  unfold read
  cases holdsNul path with
  | true => simp
  | false =>
    cases hs : h.status path with
    | error e => simp [refusing]
    | ok e => cases e <;> simp [refusing]

/-- What is read stands at the place that the path leads to. -/
theorem get?_of_read {bytes : ByteArray} (hr : h.read path = .ok bytes) :
    ∃ l, h.place? path = some l ∧ h.files.get? l = some (.file bytes) := by
  obtain ⟨-, hs⟩ := read_eq_ok_iff.mp hr
  obtain ⟨here, name, hl, -, hget⟩ := status_eq_file_iff.mp hs
  exact ⟨here ++ [name], by rw [place?, hl], hget⟩

/-- Between machines with the same directories, a file that stays as it is reads the same. -/
theorem read_congr (hd : SameDirectories h h')
    (hsame : ∀ l, h.place? path = some l → h'.files.get? l = h.files.get? l) {bytes : ByteArray}
    (hr : h.read path = .ok bytes) : h'.read path = .ok bytes := by
  obtain ⟨hn, hs⟩ := read_eq_ok_iff.mp hr
  obtain ⟨here, name, hl, hle, hget⟩ := status_eq_file_iff.mp hs
  refine read_eq_ok_iff.mpr ⟨hn, status_eq_file_iff.mpr ⟨here, name, hd.locate_eq_ok hl, hle, ?_⟩⟩
  rw [hsame _ (by rw [place?, hl]), hget]

/-! ## Writing -/

theorem writable_eq_ok (hw : h.writable path = .ok l) :
    holdsNul path = false ∧ ∃ here name, l = here ++ [name] ∧
      h.locate path = .ok (.child here name false) ∧ name.utf8ByteSize ≤ nameLimit ∧
      h.files.get? l ≠ some .directory := by
  unfold writable at hw
  cases hn : holdsNul path with
  | true => simp [hn] at hw
  | false =>
    refine ⟨rfl, ?_⟩
    simp only [hn, Bool.false_eq_true, if_false] at hw
    cases hl : h.locate path with
    | error e => simp [hl, refusing] at hw
    | ok d =>
      cases d with
      | passed there => simp [hl, refusing] at hw
      | child here name slash =>
        cases slash with
        | true => simp [hl, refusing] at hw
        | false =>
          by_cases hlong : nameLimit < name.utf8ByteSize
          · simp [hl, hlong, refusing] at hw
          refine ⟨here, name, ?_⟩
          cases hget : h.files.get? (here ++ [name]) with
          | none =>
            simp only [hl, hlong, hget, Bool.false_eq_true, if_false, refusing,
              Except.ok.injEq] at hw
            subst hw
            exact ⟨rfl, rfl, Nat.le_of_not_lt hlong, by simp [hget]⟩
          | some e =>
            cases e with
            | directory => simp [hl, hlong, hget, refusing] at hw
            | file content =>
              simp only [hl, hlong, hget, Bool.false_eq_true, if_false, refusing,
                Except.ok.injEq] at hw
              subst hw
              exact ⟨rfl, rfl, Nat.le_of_not_lt hlong, by simp [hget]⟩

theorem writable_of_locate {here : Location} (hn : holdsNul path = false)
    (hl : h.locate path = .ok (.child here name false)) (hle : name.utf8ByteSize ≤ nameLimit)
    (hget : h.files.get? (here ++ [name]) ≠ some .directory) :
    h.writable path = .ok (here ++ [name]) := by
  rw [writable, hn, hl]
  simp only [Bool.false_eq_true, if_false, Nat.not_lt.mpr hle]
  cases hfound : h.files.get? (here ++ [name]) with
  | none => rfl
  | some e =>
    cases e with
    | directory => exact absurd hfound hget
    | file content => rfl

/-- Between machines with the same directories, the same files can be opened. -/
theorem writable_congr (hd : SameDirectories h h') (hw : h.writable path = .ok l) :
    h'.writable path = .ok l := by
  obtain ⟨hn, here, name, rfl, hl, hle, hget⟩ := writable_eq_ok hw
  exact writable_of_locate hn (hd.locate_eq_ok hl) hle fun hdir => hget ((hd.directory _).mp hdir)

theorem place?_of_writable (hw : h.writable path = .ok l) : h.place? path = some l := by
  obtain ⟨-, here, name, rfl, hl, -, -⟩ := writable_eq_ok hw
  rw [place?, hl]

theorem ne_nil_of_writable (hw : h.writable path = .ok l) : l ≠ [] := by
  obtain ⟨-, here, name, rfl, -, -, -⟩ := writable_eq_ok hw
  simp

theorem not_directory_of_writable (hw : h.writable path = .ok l) :
    h.files.get? l ≠ some .directory := by
  obtain ⟨-, _, _, -, -, -, hnot⟩ := writable_eq_ok hw
  exact hnot

/-- `h'` is `h` with a file written at one place. -/
structure Wrote (l : Location) (content : ByteArray) (h h' : Host) : Prop where
  workingDirectory : h'.workingDirectory = h.workingDirectory
  files : h'.files = h.files.set l (.file content)

theorem wrote_put (l : Location) (content : ByteArray) (h : Host) :
    Wrote l content h (h.put l (.file content)) := ⟨rfl, rfl⟩

namespace Wrote

variable {content : ByteArray}

theorem get?_of_ne (hp : Wrote l content h h') {k : Location} (hk : k ≠ l) :
    h'.files.get? k = h.files.get? k := by
  rw [hp.files, Tree.get?_set_of_ne _ _ hk]

theorem get?_self (hp : Wrote l content h h') (hw : h.writable path = .ok l) :
    h'.files.get? l = some (.file content) := by
  rw [hp.files, Tree.get?_set_self _ _ (ne_nil_of_writable hw)]

/-- A file is written where there is no directory, so the directories stay. -/
theorem sameDirectories (hp : Wrote l content h h') (hw : h.writable path = .ok l) :
    SameDirectories h h' := by
  refine ⟨hp.workingDirectory, fun k => ?_⟩
  by_cases hk : k = l
  · subst hk
    rw [hp.get?_self hw]
    simp [not_directory_of_writable hw]
  · rw [hp.get?_of_ne hk]

end Wrote

/-- What stands at the place of a path that was written to is read through the path. -/
theorem read_of_writable (hw : h.writable path = .ok l) (hd : SameDirectories h h')
    {bytes : ByteArray} (hget : h'.files.get? l = some (.file bytes)) :
    h'.read path = .ok bytes := by
  obtain ⟨hn, here, name, rfl, hl, hle, -⟩ := writable_eq_ok hw
  exact read_eq_ok_iff.mpr
    ⟨hn, status_eq_file_iff.mpr ⟨here, name, hd.locate_eq_ok hl, hle, hget⟩⟩

/-! ## Names in one directory -/

/-- A name joined to a path leads to the place of that name in the directory of the path. -/
theorem place?_join (hname : IsName name) (hp : h.place? (join base name) = some l) :
    ∃ here, h.files.walk (h.start base) (steps base) = .ok here ∧ l = here ++ [name] := by
  have hstart : h.start (join base name) = h.start base := by
    rw [start, start, startsAtRoot_join base hname]
  have hlast := getLast?_steps_join base hname
  have hdrop := dropLast_steps_join base hname
  unfold place? at hp
  cases hl : h.locate (join base name) with
  | error e => simp [hl] at hp
  | ok d =>
    cases d with
    | passed there =>
      -- the last step is `name`, so the path does not lead back
      unfold locate at hl
      split at hl
      · cases hl
      split at hl
      · cases hl
      simp only [hlast, hname.ne_here, hname.ne_above, if_false] at hl
      split at hl <;> cases hl
    | child here last slash =>
      obtain ⟨hlast', hwalk, -, -, -⟩ := locate_eq_child hl
      rw [hlast, Option.some.injEq] at hlast'
      subst hlast'
      rw [hstart, hdrop] at hwalk
      rw [hl] at hp
      exact ⟨here, hwalk, (Option.some.inj hp).symm⟩

/-- Without a step upwards, a path and a name lead down to the name one step after the other. -/
theorem place?_join_of_not_above (hname : IsName name) (habove : ".." ∉ steps base)
    (hp : h.place? (join base name) = some l) :
    l = h.start base ++ (steps base).filter (· ≠ ".") ++ [name] := by
  obtain ⟨here, hwalk, rfl⟩ := place?_join hname hp
  rw [Tree.walk_eq_ok_of_not_above hwalk habove]

/-- A name joined to a path leads into the directory of the path, if the two are not too long for a
path. -/
theorem locate_join {here : Location} (hname : IsName name)
    (hwalk : h.files.walk (h.start base) (steps base) = .ok here)
    (hsize : (join base name).utf8ByteSize ≤ pathLimit) :
    h.locate (join base name) = .ok (.child here name false) := by
  have hlast := getLast?_steps_join base hname
  have hdrop := dropLast_steps_join base hname
  have hne : (join base name).isEmpty = false := by
    refine Bool.eq_false_iff.mpr fun hempty => ?_
    rw [String.isEmpty_iff.mp hempty] at hlast
    cases hlast
  rw [start] at hwalk
  simp only [locate, hne, Nat.not_lt.mpr hsize, hlast, hdrop, startsAtRoot_join base hname, hwalk,
    hname.ne_here, hname.ne_above, endsInSlash_join base hname, if_false, Bool.false_eq_true]

theorem holdsNul_append (a b : String) : holdsNul (a ++ b) = (holdsNul a || holdsNul b) := by
  rw [holdsNul, holdsNul, holdsNul, String.toList_append, List.contains_append]

theorem holdsNul_of_join (hslash : '/' ∉ name.toList) (hn : holdsNul (join base name) = false) :
    holdsNul name = false := by
  rcases join_of_relative base (startsAtRoot_of_slash_not_mem hslash) with ⟨hj, -⟩ | hj
  all_goals
    rw [hj, holdsNul_append, Bool.or_eq_false_iff] at hn
    exact hn.2

/-- A name in a directory that is itself reached by a name. -/
theorem place?_join_join {dir : String} (hdir : IsName dir) (hname : IsName name)
    (hp : h.place? (join (join base dir) name) = some l) :
    ∃ here, h.files.walk (h.start base) (steps base) = .ok here ∧
      h.files.get? (here ++ [dir]) = some .directory ∧ l = here ++ [dir, name] := by
  obtain ⟨there, hwalk, rfl⟩ := place?_join hname hp
  rw [start, startsAtRoot_join base hdir, ← start, steps_join base hdir] at hwalk
  obtain ⟨here, hbase, hlast⟩ := Tree.walk_append_eq_ok hwalk
  obtain ⟨next, he, hnext⟩ := Tree.walk_cons_eq_ok hlast
  obtain rfl : next = there := Except.ok.inj hnext
  rcases Tree.enter_eq_ok he with ⟨rfl, -⟩ | ⟨rfl, -⟩ | ⟨-, -, -, hget, rfl⟩
  · exact absurd rfl hdir.ne_here
  · exact absurd rfl hdir.ne_above
  · exact ⟨here, hbase, hget, by rw [List.append_assoc]; rfl⟩

/-- What can be written to under a directory has a name there. -/
theorem isName_of_writable_join (hslash : '/' ∉ name.toList)
    (hw : h.writable (join base name) = .ok l) : IsName name := by
  obtain ⟨-, here, last, -, hl, -, -⟩ := writable_eq_ok hw
  obtain ⟨hlast, -, hhere, habove, hends⟩ := locate_eq_child hl
  have hne : name ≠ "" := by
    rintro rfl
    -- the path would be empty or end in a slash
    rcases join_of_relative base (startsAtRoot_of_slash_not_mem hslash) with ⟨hj, rfl | hb⟩ | hj
    · rw [hj] at hlast
      cases hlast
    · rw [hj, String.append_empty, hb] at hends
      cases hends
    · rw [hj, String.append_empty, endsInSlash, String.toList_append, List.getLast?_append] at hends
      cases hends
  rw [steps_join_of_relative base (startsAtRoot_of_slash_not_mem hslash),
    steps_of_slash_not_mem hne hslash, List.getLast?_append] at hlast
  obtain rfl : name = last := Option.some.inj hlast
  exact ⟨hne, hslash, hhere, habove⟩

/-- Different names lead to different places, in one directory or in two. -/
theorem eq_of_samePlace_join {base' a b : String} (ha : IsName a) (hb : IsName b)
    (hs : h.SamePlace (join base a) (join base' b)) : a = b := by
  obtain ⟨l, hla, hlb⟩ := hs
  obtain ⟨here, -, rfl⟩ := place?_join ha hla
  obtain ⟨there, -, he⟩ := place?_join hb hlb
  simpa using (List.append_inj' he rfl).2

end Host
end Files
end DbImage
