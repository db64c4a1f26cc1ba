import DbImage.Proofs.Image.Description
import DbImage.Proofs.Text.Utf8

/-!
# What the record of a staged file says

The record of a staged file names a path, or it holds content and the name of the encoding that the
content is to be read with.  It names a path exactly for a reference, in normal form.  What it holds for
content that is given at once is a text if the content is strictly valid UTF-8 and base 64 if it is not,
and gives the content back in either case: `ofItem_decodes`.
-/

namespace DbImage

open Files (NormalFormOf)
open Text.Utf8 (IsStrict Reads)
open Text.Base64 (Spells)

/-- What a record holds under a name. -/
def Document.get? : Document → String → Option Document
  | record fields, name => field? fields name
  | _, _ => none

/-- The bytes that a text stands for in the encoding of this name. -/
def Encoding.decode? (name text : String) : Option ByteArray :=
  if name = "utf-8" then some text.toUTF8
  else if name = "base64" then
    (Text.Base64.decode? text.toList).map fun bytes => ⟨bytes.toArray⟩
  else none

namespace StagedFile

/-- The record has a path, and neither content nor an encoding. -/
structure NamesPath (d : Document) (path : String) : Prop where
  path : d.get? "path" = some (.text path)
  content : d.get? "content" = none
  encoding : d.get? "encoding" = none

/-- The record has content and an encoding, and no path. -/
structure HoldsContent (d : Document) (content encoding : String) : Prop where
  path : d.get? "path" = none
  content : d.get? "content" = some (.text content)
  encoding : d.get? "encoding" = some (.text encoding)

variable {f : StagedFile} {item : StagedItem} {text : String} {bytes : ByteArray}

theorem get?_target (f : StagedFile) : f.document.get? "target" = some (.text f.target) := rfl

theorem namesPath_document : NamesPath f.document text ↔ f.form = .path text := by
  obtain ⟨target, form⟩ := f
  cases form with
  | path path =>
    constructor
    · intro h
      obtain ⟨hpath, -, -⟩ := h
      cases hpath
      rfl
    · intro h
      cases h
      exact ⟨rfl, rfl, rfl⟩
  | content content encoding =>
    constructor
    · intro h
      obtain ⟨hpath, -, -⟩ := h
      cases hpath
    · intro h
      cases h

theorem holdsContent_document {encoding : Encoding} (h : f.form = .content text encoding) :
    HoldsContent f.document text encoding.word := by
  obtain ⟨target, form⟩ := f
  cases h
  exact ⟨rfl, rfl, rfl⟩

theorem HoldsContent.unique {d : Document} {content content' encoding encoding' : String}
    (h : HoldsContent d content encoding) (h' : HoldsContent d content' encoding') :
    content = content' ∧ encoding = encoding' := by
  have hcontent := Option.some.inj (h.content.symm.trans h'.content)
  have hencoding := Option.some.inj (h.encoding.symm.trans h'.encoding)
  exact ⟨Document.text.inj hcontent, Document.text.inj hencoding⟩

/-- Reading by the name of the encoding is reading the form. -/
theorem decode?_word {encoding : Encoding} (h : f.form = .content text encoding) :
    Encoding.decode? encoding.word text = f.bytes? := by
  rw [bytes?, h]
  cases encoding <;> rfl

/-- Content is held as the text that it is the strict form of, and in base 64 if there is none. -/
theorem form_ofItem_inline (h : item.source = .inline bytes) :
    ∃ text encoding, (ofItem item).form = .content text encoding ∧
      (encoding = .utf8 ∧ Reads bytes.data.toList (text.toList.map Char.toNat) ∨
        encoding = .base64 ∧ ¬ IsStrict bytes.data.toList ∧
          Spells text.toList bytes.data.toList) := by
  rw [ofItem, h]
  simp only [formOf]
  cases hread : String.fromUTF8? bytes with
  | some s => exact ⟨s, .utf8, rfl, Or.inl ⟨rfl, Text.Utf8.fromUTF8?_eq_some_iff_reads.mp hread⟩⟩
  | none =>
    refine ⟨_, .base64, rfl, Or.inr ⟨rfl, ?_, ?_⟩⟩
    · rw [Text.Utf8.isStrict_iff, hread]
      exact Bool.false_ne_true
    · rw [Text.Base64.encodeBytes, String.toList_ofList]
      exact Text.Base64.spells_encode _

theorem form_ofItem_eq_path (h : (ofItem item).form = .path text) :
    ∃ r, item.source = .reference r ∧ text = r.text := by
  cases hsource : item.source with
  | inline bytes =>
    obtain ⟨content, encoding, hform, -⟩ := form_ofItem_inline hsource
    rw [hform] at h
    cases h
  | reference r =>
    rw [ofItem, hsource] at h
    cases h
    exact ⟨r, rfl, rfl⟩

/-- Whatever the item is: its record keeps the target, and names a path exactly if the source is a
reference, the path in normal form. For content that is given at once it names UTF-8 exactly if the
content is strictly valid UTF-8, and base 64 otherwise, and what it holds is that form of the content;
reading it in the encoding that is named gives the content back. -/
theorem ofItem_decodes (item : StagedItem) :
    (ofItem item).document.get? "target" = some (.text item.target) ∧
    ((∃ text, NamesPath (ofItem item).document text) ↔ ∃ r, item.source = .reference r) ∧
    (∀ r, item.source = .reference r → NamesPath (ofItem item).document r.text) ∧
    (∀ path text, item.source = .reference (.ofText path) →
      (NamesPath (ofItem item).document text ↔ NormalFormOf path text)) ∧
    ∀ bytes, item.source = .inline bytes →
      ∃ content encoding, HoldsContent (ofItem item).document content encoding ∧
        Encoding.decode? encoding content = some bytes ∧
        (encoding = "utf-8" ↔ IsStrict bytes.data.toList) ∧
        (encoding = "base64" ↔ ¬ IsStrict bytes.data.toList) ∧
        (encoding = "utf-8" → Reads bytes.data.toList (content.toList.map Char.toNat)) ∧
        (encoding = "base64" → Spells content.toList bytes.data.toList) := by
  have hpath : ∀ r, item.source = .reference r → (ofItem item).form = .path r.text := by
    intro r hsource
    rw [ofItem, hsource]
  refine ⟨get?_target _, ⟨fun h => ?_, fun h => ?_⟩, fun r hsource => ?_, fun path text hsource => ?_,
    fun bytes hsource => ?_⟩
  · obtain ⟨text, htext⟩ := h
    obtain ⟨r, hr, -⟩ := form_ofItem_eq_path (namesPath_document.mp htext)
    exact ⟨r, hr⟩
  · obtain ⟨r, hsource⟩ := h
    exact ⟨r.text, namesPath_document.mpr (hpath r hsource)⟩
  · exact namesPath_document.mpr (hpath r hsource)
  · rw [namesPath_document, hpath _ hsource, Files.normalFormOf_iff, StagedForm.path.injEq, eq_comm]
  · obtain ⟨content, encoding, hform, hencoding⟩ := form_ofItem_inline hsource
    refine ⟨content, encoding.word, holdsContent_document hform,
      (decode?_word hform).trans (bytes?_ofItem hsource), ?_⟩
    rcases hencoding with ⟨rfl, hreads⟩ | ⟨rfl, hstrict, hspells⟩
    · have hstrict : IsStrict bytes.data.toList := ⟨_, hreads⟩
      simp [Encoding.word, hstrict, hreads]
    · simp [Encoding.word, hstrict, hspells]

/-- A reference that is written with more than it needs; one character of four bytes; and half a
character and a letter, which are no UTF-8 and leave one byte for the last group of base 64. -/
theorem ofItem_decodes_of_each_kind :
    let script : StagedItem := ⟨"/a.sql", .reference (.ofText "db//./a.sql")⟩
    let face : ByteArray := ⟨#[0xF0, 0x9F, 0x98, 0x80]⟩
    let half : ByteArray := ⟨#[0xED, 0xA0, 0x80, 0x41]⟩
    let whole : StagedItem := ⟨"/b.sql", .inline face⟩
    let broken : StagedItem := ⟨"/c.sql", .inline half⟩
    script.source = .reference (.ofText "db//./a.sql") ∧ whole.source = .inline face ∧
      broken.source = .inline half ∧
      (NamesPath (ofItem script).document "db/a.sql" ∧ NormalFormOf "db//./a.sql" "db/a.sql") ∧
      (HoldsContent (ofItem whole).document "😀" "utf-8" ∧ IsStrict face.data.toList ∧
        Encoding.decode? "utf-8" "😀" = some face) ∧
      HoldsContent (ofItem broken).document "7aCAQQ==" "base64" ∧ ¬ IsStrict half.data.toList ∧
        Encoding.decode? "base64" "7aCAQQ==" = some half := by
  intro script face half whole broken
  obtain ⟨-, -, hnames, hnormal, -⟩ := ofItem_decodes script
  have hpath : NamesPath (ofItem script).document "db/a.sql" := hnames (.ofText "db//./a.sql") rfl
  have htext : (ofItem whole).form = .content "😀" .utf8 := by decide
  have hbytes : (ofItem broken).form = .content "7aCAQQ==" .base64 := by decide
  obtain ⟨-, -, -, -, hwhole⟩ := ofItem_decodes whole
  obtain ⟨-, -, -, -, hbroken⟩ := ofItem_decodes broken
  obtain ⟨_, _, hholds, hdecode, hutf8, -⟩ := hwhole face rfl
  obtain ⟨_, _, hholds', hdecode', -, hbase64, -⟩ := hbroken half rfl
  obtain ⟨rfl, rfl⟩ := hholds.unique (holdsContent_document htext)
  obtain ⟨rfl, rfl⟩ := hholds'.unique (holdsContent_document hbytes)
  exact ⟨rfl, rfl, rfl, ⟨hpath, (hnormal _ _ rfl).mp hpath⟩, ⟨hholds, hutf8.mp rfl, hdecode⟩,
    hholds', hbase64.mp rfl, hdecode'⟩

end StagedFile
end DbImage
