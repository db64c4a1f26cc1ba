import DbImage.Document
import DbImage.Proofs.Bindings
import Mathlib.Data.List.Perm.Subperm

/-!
# Documents that hold the same data

A record is known by what stands under each name, so its fields may be listed in any order.  Texts and
lists are compared as they stand.
-/

namespace DbImage
namespace Document

/-- Numbers are compared by value. What is no number equals nothing, and zero has no sign. -/
def sameNumber (x y : Number.Double) : Bool :=
  x != .nan && (x == y || x.toInt? == some 0 && y.toInt? == some 0)

/-- What stands under a name: the first field of that name counts. -/
def field? (fields : List (String × Document)) (name : String) : Option Document :=
  (fields.find? (·.1 == name)).map (·.2)

mutual

/-- The two documents hold the same data. -/
def same : Document → Document → Bool
  | text s, text t => s == t
  | integer m, integer n => m == n
  | integer m, number y => y.toInt? == some m
  | number x, integer n => x.toInt? == some n
  | number x, number y => sameNumber x y
  | list ds, list es => sameItems ds es
  | record fs, record gs => fs.length == gs.length && sameFields fs gs
  | _, _ => false

def sameItems : List Document → List Document → Bool
  | [], [] => true
  | d :: ds, e :: es => same d e && sameItems ds es
  | _, _ => false

/-- Each field of the first list is one of the second. -/
def sameFields : List (String × Document) → List (String × Document) → Bool
  | [], _ => true
  | f :: fs, gs => sameField f gs && sameFields fs gs

def sameField : String × Document → List (String × Document) → Bool
  | (name, d), gs =>
    match field? gs name with
    | some e => same d e
    | none => false

end

theorem same_text {s t : String} : same (.text s) (.text t) = true ↔ s = t := by
  rw [same, beq_iff_eq]

@[simp]
theorem same_string {s t : String} : same (.string s) (.string t) = true ↔ s = t :=
  same_text

theorem sameItems_map_iff {α : Type} {f : α → Document}
    (h : ∀ a b, same (f a) (f b) = true ↔ a = b) {as bs : List α} :
    sameItems (as.map f) (bs.map f) = true ↔ as = bs := by
  induction as generalizing bs with
  | nil => cases bs <;> simp [sameItems]
  | cons a as ih => cases bs <;> simp [sameItems, h, ih]

theorem same_texts {ss ts : List String} : same (texts ss) (texts ts) = true ↔ ss = ts := by
  rw [texts, texts, same, sameItems_map_iff fun _ _ => same_string]

theorem sameFields_iff {fs gs : List (String × Document)} :
    sameFields fs gs = true ↔ ∀ f ∈ fs, sameField f gs = true := by
  induction fs with
  | nil => simp [sameFields]
  | cons f fs ih => rw [sameFields, Bool.and_eq_true, ih, List.forall_mem_cons]

theorem same_record {fs gs : List (String × Document)} (h : fs.length = gs.length) :
    same (.record fs) (.record gs) = true ↔ ∀ f ∈ fs, sameField f gs = true := by
  rw [same, h, beq_self_eq_true, Bool.true_and, sameFields_iff]

theorem sameField_of_field? {name : String} {d e : Document} {gs : List (String × Document)}
    (h : field? gs name = some e) : sameField (name, d) gs = same d e := by
  rw [sameField, h]

/-! ## Records of texts -/

/-- Variables as a record. -/
def ofBindings (b : Bindings) : Document :=
  .record (b.map fun (n, v) => (n, .text v))

theorem field?_ofBindings (b : Bindings) (name : String) :
    field? (b.map fun (n, v) => (n, .text v)) name = (b.get? name).map .text := by
  rw [field?, List.find?_map, Option.map_map, Bindings.get?, Option.map_map]
  rfl

theorem sameField_text {n v : String} {b : Bindings} :
    sameField (n, .text v) (b.map fun (n, v) => (n, .text v)) = true ↔
      b.get? n = some v := by
  rw [sameField, field?_ofBindings]
  cases b.get? n with
  | none => simp
  | some w =>
    rw [Option.some.injEq]
    exact same_text.trans eq_comm

theorem sameFields_ofBindings {a b : Bindings} :
    sameFields (a.map fun (n, v) => (n, .text v)) (b.map fun (n, v) => (n, .text v)) = true ↔
      ∀ p ∈ a, b.get? p.1 = some p.2 := by
  rw [sameFields_iff, List.forall_mem_map]
  exact forall₂_congr fun _ _ => sameField_text

/-- Variables make the same record if they are the same up to their order. -/
theorem same_ofBindings {a b : Bindings} (ha : a.names.Nodup) (hb : b.names.Nodup) :
    same (ofBindings a) (ofBindings b) = true ↔ a.Perm b := by
  rw [ofBindings, ofBindings, same, Bool.and_eq_true, beq_iff_eq, List.length_map, List.length_map,
    sameFields_ofBindings]
  constructor
  · rintro ⟨hlength, hfields⟩
    have hsub : a ⊆ b := fun p hp => (Bindings.get?_eq_some_iff hb).mp (hfields p hp)
    exact ((Bindings.nodup_of_nodup_names ha).subperm hsub).perm_of_length_le
      (Nat.le_of_eq hlength.symm)
  · intro hperm
    exact ⟨hperm.length_eq, fun p hp => (Bindings.get?_eq_some_iff hb).mpr (hperm.subset hp)⟩

end Document
end DbImage
