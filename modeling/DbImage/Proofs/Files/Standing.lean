import DbImage.Proofs.Files.Action
import DbImage.Proofs.Files.Place

/-!
# What stands already

A path names a directory when all of its steps can be walked.  Then the path above it names one too, so
making the directory finds everything there and does nothing: `on_ensureDirectories_of_isDirectory`.
In the same way a file that is written with what it holds leaves the machine as it was.
-/

namespace DbImage
namespace Files

namespace Tree

theorem set_eq_self {t : Tree} {l : Location} {e : Entry} (hl : l ≠ [])
    (hget : t.get? l = some e) : t.set l e = t := by
  have hput : ∀ es, find l es = some e → put l e es = es := by
    intro es
    induction es with
    | nil => intro h; cases h
    | cons p rest ih =>
      obtain ⟨l', e'⟩ := p
      intro h
      rw [find] at h
      rw [put]
      split at h
      · rename_i hl'
        rw [if_pos hl', Option.some.inj h]
      · rename_i hl'
        rw [if_neg hl', ih h]
  rw [get?, if_neg hl] at hget
  rw [set, hput _ hget]

theorem walk_append_of_ok {t : Tree} {here next : Location} {all : List String}
    (h : t.walk here all = .ok next) (rest : List String) :
    t.walk here (all ++ rest) = t.walk next rest := by
  induction all generalizing here with
  | nil => rw [List.nil_append, Except.ok.inj h]
  | cons step all ih =>
    obtain ⟨mid, he, hall⟩ := walk_cons_eq_ok h
    rw [List.cons_append, walk_cons_of_enter he, ih hall]

theorem walk_singleton (t : Tree) (here : Location) (step : String) :
    t.walk here [step] = t.enter here step := by
  rw [walk]
  cases t.enter here step <;> rfl

end Tree

namespace Host

variable {h h' : Host} {path base name : String} {l : Location}

/-- A file that is emptied and given back what it held is as it was. -/
theorem put_put_eq_self {content : ByteArray} (hl : l ≠ [])
    (hget : h.files.get? l = some (.file content)) :
    (h.put l (.file .empty)).put l (.file content) = h := by
  have hfiles : (h.files.set l (.file .empty)).set l (.file content) = h.files := by
    rw [Tree.set_set, Tree.set_eq_self hl hget]
  rw [put, files_put, hfiles]
  rfl

theorem locate_of_no_steps (hne : path ≠ "") (hsize : path.utf8ByteSize ≤ pathLimit)
    (hsteps : steps path = []) : h.locate path = .ok (.passed (h.start path)) := by
  have hempty : path.isEmpty = false := by simpa using hne
  rw [locate, hempty, if_neg (by decide), if_neg (Nat.not_lt.mpr hsize), hsteps]
  rfl

theorem locate_of_getLast? {last : String} (hsize : path.utf8ByteSize ≤ pathLimit)
    (hlast : (steps path).getLast? = some last) :
    h.locate path =
      (h.files.walk (h.start path) (steps path).dropLast).map fun here =>
        if last = "." then .passed here
        else if last = ".." then .passed here.dropLast
        else .child here last (endsInSlash path) := by
  have hempty : path.isEmpty = false := by
    refine Bool.eq_false_iff.mpr fun he => ?_
    rw [String.isEmpty_iff.mp he] at hlast
    cases hlast
  rw [locate, hempty, if_neg (by decide), if_neg (Nat.not_lt.mpr hsize)]
  dsimp only
  rw [hlast, ← start]
  cases h.files.walk (h.start path) (steps path).dropLast with
  | error e => rfl
  | ok here =>
    dsimp only [Except.map]
    split
    · rfl
    · split <;> rfl

/-- What is at the end of a path is a directory exactly if the last step can be taken too. -/
theorem status_eq_directory_iff_enter {last : String} {here : Location}
    (hsize : path.utf8ByteSize ≤ pathLimit) (hlast : (steps path).getLast? = some last)
    (hwalk : h.files.walk (h.start path) (steps path).dropLast = .ok here) :
    h.status path = .ok .directory ↔ ∃ l, h.files.enter here last = .ok l := by
  rw [status, locate_of_getLast? hsize hlast, hwalk, Tree.enter]
  dsimp only [Except.map]
  by_cases hhere : last = "."
  · simp [hhere]
  by_cases habove : last = ".."
  · simp [habove]
  by_cases hlong : nameLimit < last.utf8ByteSize
  · simp [hhere, habove, hlong]
  simp only [hhere, habove, hlong, if_false]
  cases h.files.get? (here ++ [last]) with
  | none => simp
  | some e =>
    cases e with
    | directory => simp
    | file content => cases endsInSlash path <;> simp

/-- A path names a directory exactly if it is neither empty nor too long and all of its steps lead
from one directory into the next. -/
theorem status_eq_directory_iff :
    h.status path = .ok .directory ↔
      path ≠ "" ∧ path.utf8ByteSize ≤ pathLimit ∧
        ∃ l, h.files.walk (h.start path) (steps path) = .ok l := by
  by_cases hne : path = ""
  · subst hne
    exact iff_of_false (fun hs => nomatch hs) fun hs => hs.1 rfl
  by_cases hsize : pathLimit < path.utf8ByteSize
  · refine iff_of_false (fun hs => ?_) fun hs => absurd hs.2.1 (Nat.not_le.mpr hsize)
    rw [status, locate_of_long hsize] at hs
    cases hs
  have hle := Nat.le_of_not_lt hsize
  simp only [ne_eq, hne, not_false_eq_true, hle, true_and]
  cases hlast : (steps path).getLast? with
  | none =>
    have hsteps : steps path = [] := List.getLast?_eq_none_iff.mp hlast
    rw [status, locate_of_no_steps hne hle hsteps, hsteps]
    exact ⟨fun _ => ⟨_, rfl⟩, fun _ => rfl⟩
  | some last =>
    have hsteps : steps path = (steps path).dropLast ++ [last] := by
      obtain ⟨front, hfront⟩ := List.getLast?_eq_some_iff.mp hlast
      rw [hfront, List.dropLast_concat]
    cases hwalk : h.files.walk (h.start path) (steps path).dropLast with
    | error e =>
      refine iff_of_false (fun hs => ?_) fun hs => ?_
      · rw [status, locate_of_getLast? hle hlast, hwalk] at hs
        cases hs
      · obtain ⟨l, hl⟩ := hs
        rw [hsteps] at hl
        obtain ⟨here, hfront, -⟩ := Tree.walk_append_eq_ok hl
        rw [hwalk] at hfront
        cases hfront
    | ok here =>
      rw [status_eq_directory_iff_enter hle hlast hwalk, hsteps]
      refine exists_congr fun l => ?_
      rw [Tree.walk_append_of_ok hwalk, Tree.walk_singleton]

/-! ## What is found -/

theorem find?_eq_some_iff {e : Entry} :
    h.find? path = some e ↔ holdsNul path = false ∧ h.status path = .ok e := by
  unfold find?
  cases holdsNul path with
  | true => simp
  | false => cases h.status path <;> simp [Except.toOption]

theorem find?_eq_file_iff {bytes : ByteArray} :
    h.find? path = some (.file bytes) ↔ h.read path = .ok bytes := by
  rw [find?_eq_some_iff, read_eq_ok_iff]

theorem ne_empty_of_find? {e : Entry} (he : h.find? path = some e) : path ≠ "" := by
  rintro rfl
  obtain ⟨-, hstatus⟩ := find?_eq_some_iff.mp he
  cases hstatus

theorem isDirectory_iff :
    h.isDirectory path = true ↔ holdsNul path = false ∧ h.status path = .ok .directory := by
  rw [isDirectory, beq_iff_eq, find?_eq_some_iff]

theorem holdsNul_of_front {rest : List Char} (hpath : path.toList = base.toList ++ rest)
    (hnul : holdsNul path = false) : holdsNul base = false := by
  rw [holdsNul, hpath, List.contains_append, Bool.or_eq_false_iff] at hnul
  exact hnul.1

theorem isDirectory_dirName (hd : h.isDirectory path = true) (hne : dirName path ≠ "") :
    h.isDirectory (dirName path) = true := by
  obtain ⟨hnul, hstatus⟩ := isDirectory_iff.mp hd
  obtain ⟨-, hsize, l, hwalk⟩ := status_eq_directory_iff.mp hstatus
  obtain ⟨rest, hpath, -⟩ := dirName_cases path
  obtain ⟨others, hsteps⟩ := steps_dirName_prefix path
  rw [start, ← startsAtRoot_dirName hne, ← start, ← hsteps] at hwalk
  obtain ⟨here, habove, -⟩ := Tree.walk_append_eq_ok hwalk
  have hstatus' : h.status (dirName path) = .ok .directory :=
    status_eq_directory_iff.mpr ⟨hne, Nat.le_trans (size_le_of_front _ hpath) hsize, here, habove⟩
  exact isDirectory_iff.mpr ⟨holdsNul_of_front hpath hnul, hstatus'⟩

/-- A path under which a name can be written to names a directory, unless it is empty. -/
theorem isDirectory_of_writable_join (hbase : base ≠ "") (hname : IsName name)
    (hw : h.writable (join base name) = .ok l) : h.isDirectory base = true := by
  obtain ⟨hnul, -⟩ := writable_eq_ok hw
  obtain ⟨rest, hpath⟩ := exists_toList_join base hname.slash_not_mem
  have hplace := place?_of_writable hw
  obtain ⟨here, hwalk, -⟩ := place?_join hname hplace
  have hsize := Nat.le_trans (size_le_of_front _ hpath) (size_le_of_place? hplace)
  exact isDirectory_iff.mpr ⟨holdsNul_of_front hpath hnul,
    status_eq_directory_iff.mpr ⟨hbase, hsize, here, hwalk⟩⟩

theorem vacant_of_isDirectory (hd : h.isDirectory path = true) :
    h.vacant path = .error (.refused ⟨.alreadyThere, path⟩) := by
  obtain ⟨hnul, hstatus⟩ := isDirectory_iff.mp hd
  rw [vacant, hnul, if_neg (by decide)]
  unfold status at hstatus
  cases hlocate : h.locate path with
  | error e => rw [hlocate] at hstatus; cases hstatus
  | ok d =>
    rw [hlocate] at hstatus
    cases d with
    | passed l => rfl
    | child here name slash =>
      dsimp only at hstatus ⊢
      split at hstatus
      · cases hstatus
      rename_i hlong
      rw [if_neg hlong]
      cases hget : h.files.get? (here ++ [name]) with
      | none => rw [hget] at hstatus; cases hstatus
      | some e => rfl

end Host

namespace Action

variable {h : Host} {path : String}

theorem on_ensureDirectory_of_isDirectory (hd : h.isDirectory path = true) :
    (ensureDirectory path).on h = (.ok (), h) := by
  rw [ensureDirectory, on_bind, on_get]
  dsimp only
  rw [Host.vacant_of_isDirectory hd]
  dsimp only
  rw [hd]
  rfl

theorem isDirectory_splitLast (hd : h.isDirectory path = true) (hne : (splitLast path).1 ≠ "") :
    h.isDirectory (splitLast path).1 = true := by
  unfold splitLast at hne ⊢
  dsimp only at hne ⊢
  split
  · rename_i hslash
    rw [if_pos hslash] at hne
    have hne' : dirName path ≠ "" := by
      intro e
      rw [e] at hne
      exact hne rfl
    exact Host.isDirectory_dirName (Host.isDirectory_dirName hd hne') hne
  · rename_i hslash
    rw [if_neg hslash] at hne
    exact Host.isDirectory_dirName hd hne

theorem on_ensureDirectoriesWithin_of_isDirectory (depth : Nat) (hd : h.isDirectory path = true) :
    (ensureDirectoriesWithin depth path).on h = (.ok (), h) := by
  cases depth with
  | zero => exact on_ensureDirectory_of_isDirectory hd
  | succ depth =>
    rw [ensureDirectoriesWithin]
    dsimp only
    rw [on_bind, on_get]
    dsimp only
    rw [if_neg, on_ensureDirectory_of_isDirectory hd]
    -- what is above is there, so nothing is missing
    intro hmissing
    have hne : (splitLast path).1 ≠ "" := fun e => by simp [e] at hmissing
    have habove := isDirectory_splitLast hd hne
    rw [Host.isDirectory, beq_iff_eq] at habove
    simp [habove] at hmissing

/-- No directory is made where no name is given for it. -/
theorem on_ensureDirectories_empty (h : Host) :
    (ensureDirectories "").on h = (.error (.refused ⟨.noEntry, ""⟩), h) := rfl

theorem on_ensureDirectories_of_isDirectory (hd : h.isDirectory path = true) :
    (ensureDirectories path).on h = (.ok (), h) :=
  on_ensureDirectoriesWithin_of_isDirectory _ hd

end Action
end Files
end DbImage
