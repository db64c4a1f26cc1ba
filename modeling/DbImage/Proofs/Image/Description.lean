import DbImage.Proofs.Document.Same
import DbImage.Proofs.Files.Reference
import DbImage.Proofs.Image.Wrapping
import DbImage.Proofs.Text.Base64

/-!
# An image is known by its description

A description leaves out how an image was made, turns content into text and lists the variables under
their names.  For images that builder calls made of a default one nothing is lost by that:
`built_eq_iff_same_description` says that two of them are equal exactly if their descriptions hold the
same data.  It rests on two facts about every such image, its variables ascend and its references are
in normal form, so that the names determine the list of variables and the texts determine the
references.
-/

namespace DbImage

open Bindings (Ascending)
open Document (same sameField sameFields sameItems)

/-! ## Staged files -/

theorem Encoding.word_inj {e f : Encoding} : e.word = f.word ↔ e = f := by
  cases e <;> cases f <;> decide

/-- A reference is to be in normal form, and content may be anything. -/
def Source.IsNormal : Source → Prop
  | inline _ => True
  | reference r => r.IsNormal

namespace StagedFile

theorem same_document {f g : StagedFile} : same f.document g.document = true ↔ f = g := by
  obtain ⟨t, form⟩ := f
  obtain ⟨u, form'⟩ := g
  cases form with
  | path p =>
    cases form' with
    | path q => simp [document, same, sameFields, sameField, Document.field?]
    | content s e => simp [document, same]
  | content s e =>
    cases form' with
    | path q => simp [document, same]
    | content s' e' =>
      simp [document, same, sameFields, sameField, Document.field?, Encoding.word_inj]

/-- The written form of content that is given at once holds the content. -/
theorem bytes?_ofItem {item : StagedItem} {bytes : ByteArray} (h : item.source = .inline bytes) :
    (ofItem item).bytes? = some bytes := by
  have hform : (ofItem item).form = formOf bytes := by rw [ofItem, h]
  rw [bytes?, hform, formOf, String.fromUTF8?]
  by_cases hvalid : bytes.IsValidUTF8
  · simp only [dif_pos hvalid]
    rfl
  · simp only [dif_neg hvalid]
    rw [Text.Base64.encodeBytes, String.toList_ofList, Text.Base64.decode?_encode]
    rfl

/-- The source that a written form stands for. -/
def source? (f : StagedFile) : Option Source :=
  match f.form with
  | .path text => some (.reference (.ofText text))
  | .content _ _ => f.bytes?.map .inline

theorem source?_ofItem {item : StagedItem} (h : item.source.IsNormal) :
    (ofItem item).source? = some item.source := by
  cases hsource : item.source with
  | inline bytes =>
    have hbytes := bytes?_ofItem hsource
    cases hform : (ofItem item).form with
    | path text =>
      rw [bytes?, hform] at hbytes
      exact absurd hbytes (by simp)
    | content text encoding => rw [source?, hform, hbytes]; rfl
  | reference r =>
    have hform : (ofItem item).form = .path r.text := by rw [ofItem, hsource]
    rw [hsource] at h
    rw [source?, hform]
    exact congrArg (fun r => some (Source.reference r)) (Files.Reference.ofText_text h)

/-- The written form tells which item it was made from. -/
theorem eq_of_ofItem_eq {a b : StagedItem} (ha : a.source.IsNormal) (hb : b.source.IsNormal)
    (h : ofItem a = ofItem b) : a = b := by
  have hsource : some a.source = some b.source := by
    rw [← source?_ofItem ha, h, source?_ofItem hb]
  exact StagedItem.ext (congrArg target h) (Option.some.inj hsource)

end StagedFile

/-! ## Descriptions -/

namespace Descriptor

/-- Two descriptions hold the same data if their parts do, where the order of the variables does not
count. -/
theorem same_document {d e : Descriptor} (hd : d.env.names.Nodup) (he : e.env.names.Nodup) :
    same d.document e.document = true ↔
      d.name = e.name ∧ d.tag = e.tag ∧ d.env.Perm e.env ∧
        sameItems (d.ready.map Readiness.document) (e.ready.map Readiness.document) = true ∧
        d.copies = e.copies ∧ d.command = e.command := by
  have hrecord : same d.document e.document = true ↔
      ∀ f ∈ d.fields, sameField f e.fields = true := Document.same_record rfl
  have hcopies : same (.list (d.copies.map StagedFile.document))
      (.list (e.copies.map StagedFile.document)) = true ↔ d.copies = e.copies := by
    rw [same, Document.sameItems_map_iff fun _ _ => StagedFile.same_document]
  have hready : same (.list (d.ready.map Readiness.document))
      (.list (e.ready.map Readiness.document)) =
        sameItems (d.ready.map Readiness.document) (e.ready.map Readiness.document) := by
    rw [same]
  have hfield : ∀ {name x y}, Document.field? e.fields name = some y →
      sameField (name, x) e.fields = same x y := Document.sameField_of_field?
  rw [hrecord, ← Document.same_ofBindings hd he, ← Document.same_texts, ← hcopies, ← hready,
    ← Document.same_text, ← Document.same_text (s := d.tag), fields]
  simp only [List.forall_mem_cons, List.not_mem_nil, false_implies, implies_true, and_true]
  rw [hfield rfl, hfield rfl, hfield rfl, hfield rfl, hfield rfl, hfield rfl]
  rfl

end Descriptor

/-! ## Postgres images -/

namespace Postgres

/-- What holds of every image that is made from the default one, and what its description needs to
determine it. -/
structure IsCanonical (p : Postgres) : Prop where
  ascending : Ascending p.env
  normal : ∀ item ∈ p.initSql, item.source.IsNormal

theorem ascending_defaultEnv : Ascending (defaultEnv : Bindings) := by
  simp only [Ascending, defaultEnv, List.pairwise_cons, List.forall_mem_cons]
  decide

theorem isCanonical_run {cs : List BuilderCall} {q : Postgres}
    (hsources : ∀ s ∈ (Outline.ofCalls cs).sources, s.IsNormal) (h : default.run cs = .ok q) :
    q.IsCanonical := by
  have hform := normalForm_run h
  constructor
  · cases hset : (Outline.ofCalls cs).setsVariable with
    | false => exact (hform.env_unset hset).symm ▸ ascending_defaultEnv
    | true => exact hform.env_ascending hset
  · intro item hitem
    rw [hform.initSql, default, List.nil_append, List.mem_mapIdx] at hitem
    obtain ⟨n, hn, rfl⟩ := hitem
    exact hsources _ (List.getElem_mem hn)

theorem command_inj {p q : Postgres} : p.command = q.command ↔ p.fsyncEnabled = q.fsyncEnabled := by
  unfold command
  cases p.fsyncEnabled <;> cases q.fsyncEnabled <;> decide

theorem sameItems_ready :
    sameItems (ready.map Readiness.document) (ready.map Readiness.document) = true := by
  simp [ready, Readiness.onStderr, Readiness.onStdout, Readiness.ofKind, Readiness.document,
    Document.optional, sameItems, same, sameFields, sameField, Document.field?]

theorem eq_of_map_ofItem_eq {as bs : List StagedItem} (ha : ∀ a ∈ as, a.source.IsNormal)
    (hb : ∀ b ∈ bs, b.source.IsNormal)
    (h : as.map StagedFile.ofItem = bs.map StagedFile.ofItem) : as = bs := by
  induction as generalizing bs with
  | nil => exact (List.map_eq_nil_iff.mp h.symm).symm
  | cons a as ih =>
    cases bs with
    | nil => exact absurd h (by simp)
    | cons b bs =>
      rw [List.forall_mem_cons] at ha hb
      rw [List.map_cons, List.map_cons, List.cons.injEq] at h
      rw [StagedFile.eq_of_ofItem_eq ha.1 hb.1 h.1, ih ha.2 hb.2 h.2]

variable {p q : Postgres}

theorem addScript_inj {s t : Source} : p.addScript s = p.addScript t ↔ s = t := by
  simp [addScript]

theorem call_initSql_inj {v w : SourceValue} :
    p.call (.initSql v) = p.call (.initSql w) ↔ Source.ofValue v = Source.ofValue w := by
  rw [call, call]
  cases Source.ofValue v <;> cases Source.ofValue w <;> simp [Except.map, addScript_inj]

/-- Variables, files and command determine the image. -/
theorem eq_of_contract (hp : p.IsCanonical) (hq : q.IsCanonical)
    (henv : p.contract.env.Perm q.contract.env)
    (hcopies : p.contract.describe.copies = q.contract.describe.copies)
    (hcommand : p.contract.command = q.contract.command) : p = q := by
  have hpairs := Bindings.eq_of_perm_ofPairs hp.ascending hq.ascending henv
  have hsql := eq_of_map_ofItem_eq hp.normal hq.normal hcopies
  exact Postgres.ext hpairs hsql (command_inj.mp hcommand)

end Postgres

/-! ## Counting -/

/-- If two values are told apart exactly by what is made of them, there are as many different ones of
the one as of the other. -/
theorem eraseDupsBy_map {α β : Type} [BEq α] {f : α → β} {r : β → β → Bool} {as : List α}
    (h : ∀ a ∈ as, ∀ b ∈ as, r (f a) (f b) = (a == b)) :
    (as.map f).eraseDupsBy r = as.eraseDups.map f := by
  -- what is left after the first value is a filtered list and not the tail
  induction hlength : as.length using Nat.strongRecOn generalizing as with
  | ind n ih =>
    cases as with
    | nil => rfl
    | cons a as =>
      have hfilter : as.filter ((fun b => decide (r b (f a) = false)) ∘ f) =
          as.filter fun b => !b == a := by
        refine List.filter_congr fun b hb => ?_
        rw [Function.comp, h b (List.mem_cons_of_mem a hb) a List.mem_cons_self]
        cases b == a <;> rfl
      have hshorter : (as.filter fun b => !b == a).length < n := by
        rw [← hlength]
        exact Nat.lt_succ_of_le (List.length_filter_le _ _)
      rw [List.map_cons, List.eraseDupsBy_cons, List.eraseDups_cons, List.map_cons,
        List.filter_map, hfilter, ih _ hshorter ?_ rfl]
      intro x hx y hy
      exact h x (List.mem_cons_of_mem a (List.mem_filter.mp hx).1) y
        (List.mem_cons_of_mem a (List.mem_filter.mp hy).1)

/-! ## Images -/

namespace ImageKind

theorem image_injective (k : ImageKind) : Function.Injective (k.image : Postgres → Image) := by
  cases k
  · exact fun _ _ h => Image.postgis.inj h
  · exact fun _ _ h => Image.postgres.inj h

/-- The name tells the kind. -/
theorem eq_of_name_eq {k l : ImageKind} {p q : Postgres}
    (h : (k.image p).contract.name = (l.image q).contract.name) : k = l := by
  have hname : Postgis.name ≠ Postgres.name := by decide
  cases k <;> cases l
  · rfl
  · exact absurd h hname
  · exact absurd h.symm hname
  · rfl

end ImageKind

namespace Image

theorem nodup_names_env_image (k : ImageKind) (p : Postgres) :
    (k.image p).contract.env.names.Nodup := by
  rw [(SameBesidesIdentity.of_image k p).env]
  exact Bindings.nodup_names_ofPairs p.env

/-- An image made from the default one of its kind by builder calls. The references among its scripts
are in normal form, as every reference is that is read from a text. -/
def Built (i : Image) : Prop :=
  ∃ (k : ImageKind) (cs : List BuilderCall),
    (∀ s ∈ (Outline.ofCalls cs).sources, s.IsNormal) ∧ (k.image .default).calls cs = .ok i

theorem Built.exists_image {i : Image} (h : i.Built) :
    ∃ (k : ImageKind) (p : Postgres), p.IsCanonical ∧ k.image p = i := by
  obtain ⟨k, cs, hsources, hcalls⟩ := h
  obtain ⟨p, hp, rfl⟩ := calls_image_eq_ok.mp hcalls
  exact ⟨k, p, Postgres.isCanonical_run hsources hp, rfl⟩

/-- Descriptions of two images, of whatever kinds, hold the same data exactly if the images are
equal. -/
theorem same_description_iff {k l : ImageKind} {p q : Postgres} (hp : p.IsCanonical)
    (hq : q.IsCanonical) :
    same (k.image p).contract.describe.document (l.image q).contract.describe.document = true ↔
      k.image p = l.image q := by
  have hk := SameBesidesIdentity.of_image k p
  have hl := SameBesidesIdentity.of_image l q
  rw [Descriptor.same_document (nodup_names_env_image k p) (nodup_names_env_image l q)]
  constructor
  · rintro ⟨hname, -, henv, -, hcopies, hcommand⟩
    obtain rfl := ImageKind.eq_of_name_eq hname
    simp only [Contract.describe, hk.env, hk.copies, hk.command, hl.env, hl.copies, hl.command]
      at henv hcopies hcommand
    rw [Postgres.eq_of_contract hp hq henv hcopies hcommand]
  · intro h
    rw [← h]
    refine ⟨rfl, rfl, .refl _, ?_, rfl, rfl⟩
    rw [Contract.describe, hk.ready]
    exact Postgres.sameItems_ready

/-- One script makes the same image as another if it is the same source. -/
theorem call_image_initSql_inj {k : ImageKind} {p : Postgres} {v w : SourceValue} :
    (k.image p).call (.initSql v) = (k.image p).call (.initSql w) ↔
      Source.ofValue v = Source.ofValue w := by
  have hmap : Function.Injective (Except.map k.image : Except Failure Postgres → _) := by
    intro x y h
    cases x <;> cases y <;> simp_all [Except.map, k.image_injective.eq_iff]
  rw [call_image, call_image, hmap.eq_iff, Postgres.call_initSql_inj]

/-- Images that builder calls made of a default one are equal exactly if their descriptions hold the
same data. So text and its UTF-8 form make one image, references make one if their texts are one, and
content never makes the image that a reference makes; and among any such images there are as many
different ones as there are different descriptions. -/
theorem built_eq_iff_same_description :
    (∀ i j : Image, i.Built → j.Built →
      (i = j ↔ same i.contract.describe.document j.contract.describe.document = true)) ∧
    (∀ (k : ImageKind) (p : Postgres) (s : String),
      (k.image p).call (.initSql (.text s)) = (k.image p).call (.initSql (.bytes s.toUTF8))) ∧
    (∀ (k : ImageKind) (p : Postgres) (r s : Files.Reference), r.IsNormal → s.IsNormal →
      ((k.image p).call (.initSql (.path r)) = (k.image p).call (.initSql (.path s)) ↔
        r.text = s.text)) ∧
    (∀ (k : ImageKind) (p : Postgres) (bytes : ByteArray) (r : Files.Reference),
      (k.image p).call (.initSql (.bytes bytes)) ≠ (k.image p).call (.initSql (.path r))) ∧
    ∀ is : List Image, (∀ i ∈ is, i.Built) →
      is.eraseDups.length =
        ((is.map fun i => i.contract.describe.document).eraseDupsBy same).length := by
  have hiff : ∀ i j : Image, i.Built → j.Built →
      (i = j ↔ same i.contract.describe.document j.contract.describe.document = true) := by
    intro i j hi hj
    obtain ⟨k, p, hp, rfl⟩ := hi.exists_image
    obtain ⟨l, q, hq, rfl⟩ := hj.exists_image
    exact (same_description_iff hp hq).symm
  refine ⟨hiff, fun k p s => ?_, fun k p r s hr hs => ?_, fun k p bytes r => ?_, fun is his => ?_⟩
  · rw [call_image_initSql_inj, Source.ofValue_text]
  · rw [call_image_initSql_inj, Files.Reference.text_inj hr hs]
    simp [Source.ofValue]
  · rw [Ne, call_image_initSql_inj]
    simp [Source.ofValue]
  · have hsame : ∀ i ∈ is, ∀ j ∈ is,
        same i.contract.describe.document j.contract.describe.document = (i == j) := by
      intro i hi j hj
      rw [Bool.eq_iff_iff, beq_iff_eq, hiff i j (his i hi) (his j hj)]
    rw [eraseDupsBy_map hsame, List.length_map]

/-- Two chains in different orders, with one file named in two ways, make one image; the same chain on
a PostGIS image makes another. So there are two descriptions among the three. -/
theorem built_eq_iff_same_description_of_orders :
    let cs : List BuilderCall :=
      [.user "u", .initSql (.path (.ofText "db//./a.sql")), .initSql (.text "x"), .dbName "d"]
    let ds : List BuilderCall :=
      [.dbName "d", .user "u", .initSql (.path (.ofText "db/a.sql")),
        .initSql (.bytes "x".toUTF8)]
    ∃ i j l : Image, (postgres .default).calls cs = .ok i ∧ (postgres .default).calls ds = .ok j ∧
      (postgis .default).calls ds = .ok l ∧
      (i.Built ∧ j.Built ∧ l.Built) ∧
      same i.contract.describe.document j.contract.describe.document = true ∧
      (([i, j, l].map fun i => i.contract.describe.document).eraseDupsBy same).length = 2 ∧
      (postgres .default).call (.initSql (.path (.ofText "db//./a.sql"))) =
        (postgres .default).call (.initSql (.path (.ofText "db/a.sql"))) := by
  intro cs ds
  have htext : Files.Reference.ofText "db//./a.sql" = .ofText "db/a.sql" := by decide
  have houtline : Outline.ofCalls cs = Outline.ofCalls ds := by
    simp only [cs, ds, htext]
    rfl
  have hsources : ∀ s ∈ (Outline.ofCalls ds).sources, s.IsNormal := by
    rw [show (Outline.ofCalls ds).sources =
      [.reference (.ofText "db/a.sql"), .inline "x".toUTF8] from rfl]
    simp [Source.IsNormal, Files.Reference.isNormal_ofText]
  have hi : Postgres.default.run cs = .ok _ := rfl
  have hj : Postgres.default.run ds = .ok _ := rfl
  have hij := (Postgres.normalForm_run hi).unique (houtline ▸ Postgres.normalForm_run hj)
  have hbuilt : (postgres _).Built ∧ (postgres _).Built ∧ (postgis _).Built :=
    ⟨⟨.postgres, cs, houtline ▸ hsources, by rw [calls_image, hi]; rfl⟩,
      ⟨.postgres, ds, hsources, by rw [calls_image, hj]; rfl⟩,
      ⟨.postgis, ds, hsources, by rw [calls_image, hj]; rfl⟩⟩
  obtain ⟨hiff, -, hpath, -, hcount⟩ := built_eq_iff_same_description
  refine ⟨_, _, _, rfl, rfl, rfl, hbuilt, (hiff _ _ hbuilt.1 hbuilt.2.1).mp ?_, ?_, ?_⟩
  · exact congrArg postgres hij
  · rw [← hcount _ (by simpa using hbuilt), hij]
    simp [List.eraseDups_cons]
  · exact (hpath .postgres _ _ _ (Files.Reference.isNormal_ofText _)
      (Files.Reference.isNormal_ofText _)).mpr (congrArg _ htext)

end Image
end DbImage
