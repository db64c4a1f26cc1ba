import DbImage.Proofs.Files.Action
import DbImage.Proofs.Files.Place

/-!
# What writing leaves alone

A run that opens and writes files, and stops where one cannot be opened or has no content, changes
what stands at the places of those files and nothing else.  `WritesFiles` says so of two machines, and
chains along a run.
-/

namespace DbImage
namespace Files

/-- Files were written at places with the property `P`, and nothing else happened to the files. -/
structure WritesFiles (P : Location → Prop) (h h' : Host) : Prop where
  sameDirectories : SameDirectories h h'
  others : ∀ l, ¬ P l → h'.files.get? l = h.files.get? l

namespace WritesFiles

variable {P Q : Location → Prop} {h h' h'' : Host}

theorem refl (h : Host) : WritesFiles P h h := ⟨SameDirectories.refl h, fun _ _ => rfl⟩

theorem trans (hw : WritesFiles P h h') (hw' : WritesFiles P h' h'') : WritesFiles P h h'' :=
  ⟨hw.sameDirectories.trans hw'.sameDirectories,
    fun l hl => (hw'.others l hl).trans (hw.others l hl)⟩

theorem mono (hPQ : ∀ l, P l → Q l) (hw : WritesFiles P h h') : WritesFiles Q h h' :=
  ⟨hw.sameDirectories, fun l hl => hw.others l fun hp => hl (hPQ l hp)⟩

theorem of_wrote {path : String} {l : Location} {content : ByteArray}
    (hp : Host.Wrote l content h h') (hw : h.writable path = .ok l) :
    WritesFiles (fun k => h.place? path = some k) h h' := by
  refine ⟨hp.sameDirectories hw, fun k hk => hp.get?_of_ne fun e => hk ?_⟩
  rw [e, Host.place?_of_writable hw]

/-- A file that is not among those written is read as before. -/
theorem read_eq_ok (hw : WritesFiles P h h') {path : String}
    (hpath : ∀ l, h.place? path = some l → ¬ P l) {bytes : ByteArray} :
    h'.read path = .ok bytes ↔ h.read path = .ok bytes := by
  have hd := hw.sameDirectories
  constructor
  · refine Host.read_congr hd.symm fun l hl => (hw.others l (hpath l ?_)).symm
    rwa [hd.place?_eq] at hl
  · exact Host.read_congr hd fun l hl => hw.others l (hpath l hl)

end WritesFiles
end Files
end DbImage
