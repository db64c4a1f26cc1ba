import DbImage.Proofs.Config.Chains
import DbImage.Proofs.Config.Meaning

/-!
# Which configurations are accepted

`Describes` says what a mapping has to be to stand for a configuration, and for which one.
`OffendsAt` says, for any mapping, at which keys and at which elements of the list of scripts something
is wrong.  The check agrees with both: it gives the configuration that the mapping describes, and
otherwise names the places that offend, all of them and no others (`ofDatum_iff_describes`).
-/

namespace DbImage

open Checks (CredentialOf Exact FieldOf OptionalOf TextOf TruthOf)

/-! ## Keys -/

/-- Some key holds half of a surrogate pair. -/
def HasLooseKey (entries : Entries LooseText) : Prop :=
  ∃ e ∈ entries, ∃ s : LooseText, e.1 = .text s ∧ s.toString? = none

section

variable {α : Type} {entries : Entries LooseText} {check : Checked α}

theorem Checks.any_isLooseKey_iff :
    entries.any (Checks.isLooseKey ·.1) = true ↔ HasLooseKey entries := by
  rw [List.any_eq_true]
  refine exists_congr fun e => and_congr_right fun _ => ?_
  cases e.1 <;> simp [Checks.isLooseKey]

theorem not_hasLooseKey_of_fields {fields : List String}
    (h : ∀ e ∈ entries, ∃ name ∈ fields, e.1 = .text name) : ¬ HasLooseKey entries := by
  rintro ⟨e, he, s, hs, hnone⟩
  obtain ⟨name, -, hname⟩ := h e he
  obtain rfl : s = name := Scalar.text.inj (hs.symm.trans hname)
  rw [LooseText.toString?_ofString] at hnone
  cases hnone

theorem Checks.record_of_hasLooseKey (h : HasLooseKey entries) :
    Checks.record entries check = .error [⟨[], .notUtf8⟩] :=
  if_pos (any_isLooseKey_iff.mpr h)

theorem Checks.record_of_not_hasLooseKey (h : ¬ HasLooseKey entries) :
    Checks.record entries check = check :=
  if_neg (mt any_isLooseKey_iff.mp h)

theorem Checks.record_ne_error_nil (h : check ≠ .error []) :
    Checks.record entries check ≠ .error [] := by
  by_cases hkey : HasLooseKey entries
  · rw [record_of_hasLooseKey hkey]
    exact fun h => (nomatch h)
  · rwa [record_of_not_hasLooseKey hkey]

/-- A check that wants all keys to be fields is not held up by keys that are none. -/
theorem Checks.record_eq_ok_iff {fields : List String} {a : α}
    (h : check = .ok a → ∀ e ∈ entries, ∃ name ∈ fields, e.1 = .text name) :
    Checks.record entries check = .ok a ↔ check = .ok a := by
  by_cases hkey : HasLooseKey entries
  · rw [record_of_hasLooseKey hkey]
    exact iff_of_false (fun h => (nomatch h)) fun hok => not_hasLooseKey_of_fields (h hok) hkey
  · rw [record_of_not_hasLooseKey hkey]

end

/-! ## Scripts -/

namespace Script

/-- The script that a mapping of its two fields stands for.  One of them is given and the other is
not. -/
inductive OfEntries (entries : Entries LooseText) : Script → Prop
  | path {p : LooseText} (hkeys : ∀ e ∈ entries, ∃ name ∈ fields, e.1 = .text name)
    (hpath : FieldOf entries "path" none (OptionalOf TextOf) (some p))
    (hinline : FieldOf entries "inline" none (OptionalOf TextOf) none) : OfEntries entries (.path p)
  | inline {t : LooseText} (hkeys : ∀ e ∈ entries, ∃ name ∈ fields, e.1 = .text name)
    (hpath : FieldOf entries "path" none (OptionalOf TextOf) none)
    (hinline : FieldOf entries "inline" none (OptionalOf TextOf) (some t)) :
    OfEntries entries (.inline t)

/-- The script that a value in fields stands for. -/
inductive OfFields : Datum LooseText → Script → Prop
  | map {entries : Entries LooseText} {s : Script} (h : OfEntries entries s) :
    OfFields (.map entries) s

/-- The script that an element of a list stands for.  A bare text stands for a path. -/
inductive OfElement : Datum LooseText → Script → Prop
  | bare (s : LooseText) : OfElement (.scalar (.text s)) (.path s)
  | fields {d : Datum LooseText} {s : Script} (h : OfFields d s) : OfElement d s

/-- The scripts that a value stands for, one for each element.  A set without members and a pair of two
scripts in fields pass for lists. -/
inductive OfList : Datum LooseText → List Script → Prop
  | list {items : List (Datum LooseText)} {ss : List Script} (h : List.Forall₂ OfElement items ss) :
    OfList (.list items) ss
  | set : OfList (.set []) []
  | pair {first second : Datum LooseText} {s t : Script} (hfirst : OfFields first s)
    (hsecond : OfFields second t) : OfList (.pair first second) [s, t]

/-- The places in a value at which it is no list of scripts: the value itself, or the elements. -/
inductive NoneAt : Datum LooseText → List Step → Prop
  | value {d : Datum LooseText} (hlist : ∀ items, d ≠ .list items) (hset : ∀ items, d ≠ .set items)
    (hpair : ∀ first second, d ≠ .pair first second) : NoneAt d []
  | element {items : List (Datum LooseText)} (k : Nat) (hk : k < items.length)
    (h : ¬ ∃ s, OfElement items[k] s) : NoneAt (.list items) [.index k]
  | member {items : List (Scalar LooseText)} (k : Nat) (hk : k < items.length) :
    NoneAt (.set items) [.index k]
  | first {first second : Datum LooseText} (h : ¬ ∃ s, OfFields first s) :
    NoneAt (.pair first second) [.index 0]
  | second {first second : Datum LooseText} (h : ¬ ∃ s, OfFields second s) :
    NoneAt (.pair first second) [.index 1]

section

variable {entries : Entries LooseText}

theorem exact_field : Exact (Checks.optional Checks.text) (OptionalOf TextOf) :=
  Checks.exact_optional Checks.single_text Checks.exact_text

theorem ofEntries_eq_ok_iff {s : Script} : ofEntries entries = .ok s ↔ OfEntries entries s := by
  constructor
  · intro h
    unfold ofEntries at h
    dsimp only at h
    split at h
    · rename_i hpath hinline hstrays
      obtain rfl := Except.ok.inj h
      exact .path (Checks.strays_eq_nil_iff.mp hstrays) ((Checks.entry_eq_ok_iff exact_field).mp hpath)
        ((Checks.entry_eq_ok_iff exact_field).mp hinline)
    · rename_i hpath hinline hstrays
      obtain rfl := Except.ok.inj h
      exact .inline (Checks.strays_eq_nil_iff.mp hstrays)
        ((Checks.entry_eq_ok_iff exact_field).mp hpath)
        ((Checks.entry_eq_ok_iff exact_field).mp hinline)
    · cases h
    · cases h
  · rintro (⟨hkeys, hpath, hinline⟩ | ⟨hkeys, hpath, hinline⟩)
    all_goals
      rw [← Checks.entry_eq_ok_iff exact_field] at hpath hinline
      simp only [ofEntries, hpath, hinline, Checks.strays_eq_nil_iff.mpr hkeys]

theorem ofEntries_ne_error_nil : ofEntries entries ≠ .error [] := by
  intro h
  unfold ofEntries at h
  dsimp only at h
  split at h
  · cases h
  · cases h
  · cases h
  · rename_i hother
    simp only [Except.error.injEq, List.append_eq_nil_iff] at h
    obtain ⟨⟨hpath, hinline⟩, hstrays⟩ := h
    rw [Checked.issues_eq_nil_iff (Checks.entry_ne_error_nil exact_field)] at hpath hinline
    obtain ⟨o, ho⟩ := hpath
    obtain ⟨o', ho'⟩ := hinline
    exact hother o o' ho ho' hstrays

theorem OfEntries.keys {s : Script} (h : OfEntries entries s) :
    ∀ e ∈ entries, ∃ name ∈ fields, e.1 = .text name := by
  cases h with
  | path hkeys => exact hkeys
  | inline hkeys => exact hkeys

theorem ofMapping_map_eq_ok_iff {s : Script} :
    ofMapping (.map entries) = .ok s ↔ OfEntries entries s := by
  rw [ofMapping, Checks.record_eq_ok_iff fun h => (ofEntries_eq_ok_iff.mp h).keys,
    ofEntries_eq_ok_iff]

theorem exact_ofMapping : Exact ofMapping OfFields := by
  refine ⟨fun {d s} => ?_, fun {d} => ?_⟩
  · constructor
    · intro h
      cases d with
      | map entries => exact .map (ofMapping_map_eq_ok_iff.mp h)
      | _ => cases h
    · rintro ⟨h⟩
      exact ofMapping_map_eq_ok_iff.mpr h
  · cases d with
    | map entries => exact Checks.record_ne_error_nil ofEntries_ne_error_nil
    | _ => exact fun h => (nomatch h)

theorem exact_ofDatum : Exact ofDatum OfElement := by
  refine ⟨fun {d s} => ?_, fun {d} => ?_⟩
  · constructor
    · intro h
      unfold ofDatum at h
      split at h
      · exact Except.ok.inj h ▸ .bare _
      · exact .fields (exact_ofMapping.eq_ok_iff.mp h)
    · rintro (_ | ⟨⟨h⟩⟩)
      · rfl
      · exact ofMapping_map_eq_ok_iff.mpr h
  · unfold ofDatum
    split
    · exact fun h => (nomatch h)
    · exact exact_ofMapping.ne_error_nil

theorem exact_member : Exact (fun s => ofMapping (.scalar s)) (fun s => OfFields (.scalar s)) :=
  ⟨exact_ofMapping.eq_ok_iff, exact_ofMapping.ne_error_nil⟩

theorem not_ofFields_scalar {s : Scalar LooseText} : ¬ ∃ script, OfFields (.scalar s) script := by
  rintro ⟨_, h⟩
  cases h

theorem exact_listOfDatum : Exact listOfDatum OfList := by
  refine ⟨fun {d ss} => ?_, fun {d} => ?_⟩
  · constructor
    · intro h
      unfold listOfDatum at h
      split at h
      · exact .list ((Checks.elements_eq_ok_iff exact_ofDatum).mp h)
      · rw [Checks.elements_eq_ok_iff exact_member] at h
        cases h with
        | nil => exact .set
        | cons h => exact absurd ⟨_, h⟩ not_ofFields_scalar
      · rw [Checks.elements_eq_ok_iff exact_ofMapping] at h
        cases h with
        | cons hs h =>
          cases h with
          | cons ht h =>
            cases h
            exact .pair hs ht
      · cases h
    · rintro (h | _ | ⟨hs, ht⟩)
      · exact (Checks.elements_eq_ok_iff exact_ofDatum).mpr h
      · rfl
      · exact (Checks.elements_eq_ok_iff exact_ofMapping).mpr (.cons hs (.cons ht .nil))
  · unfold listOfDatum
    split
    · exact Checks.elements_ne_error_nil exact_ofDatum
    · exact Checks.elements_ne_error_nil exact_member
    · exact Checks.elements_ne_error_nil exact_ofMapping
    · exact fun h => (nomatch h)

/-- Of a value that is no list of scripts, the issues name the value or the elements that are none. -/
theorem faultsAt_listOfDatum {d : Datum LooseText} {place : List Step} :
    FaultsAt 1 (listOfDatum d).issues place ↔ NoneAt d place := by
  unfold listOfDatum
  split
  · rw [Checks.faultsAt_elements exact_ofDatum]
    constructor
    · rintro ⟨k, hk, hnone, rfl⟩
      rw [Nat.zero_add]
      exact .element k hk hnone
    · intro h
      cases h with
      | value hlist => exact absurd rfl (hlist _)
      | element k hk hnone => exact ⟨k, hk, hnone, by rw [Nat.zero_add]⟩
  · rw [Checks.faultsAt_elements exact_member]
    constructor
    · rintro ⟨k, hk, -, rfl⟩
      rw [Nat.zero_add]
      exact .member k hk
    · intro h
      cases h with
      | value _ hset => exact absurd rfl (hset _)
      | member k hk => exact ⟨k, hk, not_ofFields_scalar, by rw [Nat.zero_add]⟩
  · rw [Checks.faultsAt_elements exact_ofMapping]
    constructor
    · rintro ⟨k, hk, hnone, rfl⟩
      match k, hk with
      | 0, _ => exact .first hnone
      | 1, _ => exact .second hnone
    · intro h
      cases h with
      | value _ _ hpair => exact absurd rfl (hpair _ _)
      | first hnone => exact ⟨0, Nat.zero_lt_two, hnone, rfl⟩
      | second hnone => exact ⟨1, Nat.one_lt_two, hnone, rfl⟩
  · rename_i hlist hset hpair
    have hissues : (Checked.complain .notList : Checked (List Script)).issues = [⟨[], .notList⟩] := rfl
    rw [hissues]
    constructor
    · rintro ⟨issue, hissue, rfl⟩
      obtain rfl := List.mem_singleton.mp hissue
      exact .value hlist hset hpair
    · intro h
      cases h with
      | value => exact ⟨_, List.mem_singleton_self _, rfl⟩
      | element => exact absurd rfl (hlist _)
      | member => exact absurd rfl (hset _)
      | first => exact absurd rfl (hpair _ _)
      | second => exact absurd rfl (hpair _ _)

end

end Script

/-! ## Configurations -/

namespace ImageConfig

/-- The configuration that a mapping stands for. -/
structure Describes (entries : Entries LooseText) (c : ImageConfig) : Prop where
  keys : ∀ e ∈ entries, ∃ name ∈ fields, e.1 = .text name
  image : FieldOf entries "image" default.image TextOf c.image
  dbName : FieldOf entries "db_name" none (OptionalOf CredentialOf) c.dbName
  user : FieldOf entries "user" none (OptionalOf CredentialOf) c.user
  password : FieldOf entries "password" none (OptionalOf CredentialOf) c.password
  hostAuth : FieldOf entries "host_auth" false TruthOf c.hostAuth
  fsyncEnabled : FieldOf entries "fsync_enabled" false TruthOf c.fsyncEnabled
  scripts : FieldOf entries "init_sql" [] Script.OfList c.scripts

/-- The places of a mapping at which it is no configuration: keys that name no field, fields that stand
for nothing, and of the list of scripts the elements that stand for none. -/
inductive OffendsAt (entries : Entries LooseText) : List Step → Prop
  | key {e : Scalar LooseText × Datum LooseText} (he : e ∈ entries)
    (h : ∀ name ∈ fields, e.1 ≠ .text name) : OffendsAt entries [.ofKey e.1]
  | image {d : Datum LooseText} (hd : Datum.entry? entries "image" = some d) (h : ¬ ∃ s, TextOf d s) :
    OffendsAt entries [.key "image"]
  | credential {name : String} {d : Datum LooseText} (hname : name ∈ ["db_name", "user", "password"])
    (hd : Datum.entry? entries name = some d) (h : ¬ ∃ o, OptionalOf CredentialOf d o) :
    OffendsAt entries [.key name]
  | truth {name : String} {d : Datum LooseText} (hname : name ∈ ["host_auth", "fsync_enabled"])
    (hd : Datum.entry? entries name = some d) (h : ¬ ∃ b, TruthOf d b) :
    OffendsAt entries [.key name]
  | scripts {d : Datum LooseText} {place : List Step} (hd : Datum.entry? entries "init_sql" = some d)
    (h : Script.NoneAt d place) : OffendsAt entries (.key "init_sql" :: place)

section

variable {entries : Entries LooseText} {c : ImageConfig} {place : List Step}

theorem exact_credentialField :
    Exact (Checks.optional Checks.credential) (OptionalOf CredentialOf) :=
  Checks.exact_optional Checks.single_credential Checks.exact_credential

theorem faultsAt_image :
    FaultsAt 2 (Checks.entry entries "image" default.image Checks.text).issues place ↔
      ∃ d, Datum.entry? entries "image" = some d ∧ (¬ ∃ s, TextOf d s) ∧ place = [.key "image"] :=
  Checks.faultsAt_entry_of_single Checks.exact_text Checks.single_text

theorem faultsAt_credential {name : String} :
    FaultsAt 2 (Checks.entry entries name none (Checks.optional Checks.credential)).issues place ↔
      ∃ d, Datum.entry? entries name = some d ∧ (¬ ∃ o, OptionalOf CredentialOf d o) ∧
        place = [.key name] :=
  Checks.faultsAt_entry_of_single exact_credentialField
    (Checks.single_optional Checks.single_credential)

theorem faultsAt_truth {name : String} :
    FaultsAt 2 (Checks.entry entries name false Checks.bool).issues place ↔
      ∃ d, Datum.entry? entries name = some d ∧ (¬ ∃ b, TruthOf d b) ∧ place = [.key name] :=
  Checks.faultsAt_entry_of_single Checks.exact_bool Checks.single_bool

theorem faultsAt_scripts :
    FaultsAt 2 (Checks.entry entries "init_sql" [] Script.listOfDatum).issues place ↔
      ∃ d rest, Datum.entry? entries "init_sql" = some d ∧ place = .key "init_sql" :: rest ∧
        Script.NoneAt d rest := by
  simp only [Checks.faultsAt_entry, Script.faultsAt_listOfDatum]

/-- What is wrong with each field of a mapping, and with the keys that are none. -/
def issueParts (entries : Entries LooseText) : List (List Issue) :=
  [(Checks.entry entries "image" default.image Checks.text).issues,
    (Checks.entry entries "db_name" none (Checks.optional Checks.credential)).issues,
    (Checks.entry entries "user" none (Checks.optional Checks.credential)).issues,
    (Checks.entry entries "password" none (Checks.optional Checks.credential)).issues,
    (Checks.entry entries "host_auth" false Checks.bool).issues,
    (Checks.entry entries "fsync_enabled" false Checks.bool).issues,
    (Checks.entry entries "init_sql" [] Script.listOfDatum).issues,
    Checks.strays fields entries]

theorem issues_ofEntries (entries : Entries LooseText) :
    (ofEntries entries).issues = (issueParts entries).flatten := by
  simp only [issueParts, List.flatten_cons, List.flatten_nil, List.append_nil, ← List.append_assoc]
  unfold ofEntries
  dsimp only
  split
  · rename_i hissues
    rw [hissues]
    rfl
  · rfl

theorem ofEntries_eq_ok_iff : ofEntries entries = .ok c ↔ Describes entries c := by
  constructor
  · intro h
    unfold ofEntries at h
    dsimp only at h
    split at h
    · rename_i himage hdbName huser hpassword hhostAuth hfsyncEnabled hscripts hissues
      obtain rfl := Except.ok.inj h
      exact
        { keys := Checks.strays_eq_nil_iff.mp (List.append_eq_nil_iff.mp hissues).2
          image := (Checks.entry_eq_ok_iff Checks.exact_text).mp himage
          dbName := (Checks.entry_eq_ok_iff exact_credentialField).mp hdbName
          user := (Checks.entry_eq_ok_iff exact_credentialField).mp huser
          password := (Checks.entry_eq_ok_iff exact_credentialField).mp hpassword
          hostAuth := (Checks.entry_eq_ok_iff Checks.exact_bool).mp hhostAuth
          fsyncEnabled := (Checks.entry_eq_ok_iff Checks.exact_bool).mp hfsyncEnabled
          scripts := (Checks.entry_eq_ok_iff Script.exact_listOfDatum).mp hscripts }
    · cases h
  · intro h
    exact ofEntries_eq_ok ((Checks.entry_eq_ok_iff Checks.exact_text).mpr h.image)
      ((Checks.entry_eq_ok_iff exact_credentialField).mpr h.dbName)
      ((Checks.entry_eq_ok_iff exact_credentialField).mpr h.user)
      ((Checks.entry_eq_ok_iff exact_credentialField).mpr h.password)
      ((Checks.entry_eq_ok_iff Checks.exact_bool).mpr h.hostAuth)
      ((Checks.entry_eq_ok_iff Checks.exact_bool).mpr h.fsyncEnabled)
      ((Checks.entry_eq_ok_iff Script.exact_listOfDatum).mpr h.scripts)
      (Checks.strays_eq_nil_iff.mpr h.keys)

theorem ofEntries_ne_error_nil : ofEntries entries ≠ .error [] := by
  intro h
  have hnil : (issueParts entries).flatten = [] := by
    rw [← issues_ofEntries, h]
    rfl
  simp only [issueParts, List.flatten_eq_nil_iff, List.forall_mem_cons] at hnil
  obtain ⟨himage, hdbName, huser, hpassword, hhostAuth, hfsyncEnabled, hscripts, hstrays, -⟩ := hnil
  have hcredential {name : String}
      (hissues : (Checks.entry entries name none (Checks.optional Checks.credential)).issues = []) :=
    (Checked.issues_eq_nil_iff (Checks.entry_ne_error_nil exact_credentialField)).mp hissues
  have htruth {name : String} (hissues : (Checks.entry entries name false Checks.bool).issues = []) :=
    (Checked.issues_eq_nil_iff (Checks.entry_ne_error_nil Checks.exact_bool)).mp hissues
  obtain ⟨image, himage⟩ :=
    (Checked.issues_eq_nil_iff (Checks.entry_ne_error_nil Checks.exact_text)).mp himage
  obtain ⟨dbName, hdbName⟩ := hcredential hdbName
  obtain ⟨user, huser⟩ := hcredential huser
  obtain ⟨password, hpassword⟩ := hcredential hpassword
  obtain ⟨hostAuth, hhostAuth⟩ := htruth hhostAuth
  obtain ⟨fsyncEnabled, hfsyncEnabled⟩ := htruth hfsyncEnabled
  obtain ⟨scripts, hscripts⟩ :=
    (Checked.issues_eq_nil_iff (Checks.entry_ne_error_nil Script.exact_listOfDatum)).mp hscripts
  have hok : ofEntries entries =
      .ok ⟨image, dbName, user, password, hostAuth, fsyncEnabled, scripts⟩ :=
    ofEntries_eq_ok himage hdbName huser hpassword hhostAuth hfsyncEnabled hscripts hstrays
  rw [h] at hok
  cases hok

/-- Two steps into a mapping, the issues are where it offends. -/
theorem faultsAt_ofEntries : FaultsAt 2 (ofEntries entries).issues place ↔ OffendsAt entries place := by
  rw [issues_ofEntries, faultsAt_flatten]
  constructor
  · rintro ⟨part, hpart, hfaults⟩
    simp only [issueParts, List.mem_cons, List.not_mem_nil, or_false] at hpart
    rcases hpart with rfl | rfl | rfl | rfl | rfl | rfl | rfl | rfl
    · obtain ⟨d, hd, h, rfl⟩ := faultsAt_image.mp hfaults
      exact .image hd h
    · obtain ⟨d, hd, h, rfl⟩ := faultsAt_credential.mp hfaults
      exact .credential (by decide) hd h
    · obtain ⟨d, hd, h, rfl⟩ := faultsAt_credential.mp hfaults
      exact .credential (by decide) hd h
    · obtain ⟨d, hd, h, rfl⟩ := faultsAt_credential.mp hfaults
      exact .credential (by decide) hd h
    · obtain ⟨d, hd, h, rfl⟩ := faultsAt_truth.mp hfaults
      exact .truth (by decide) hd h
    · obtain ⟨d, hd, h, rfl⟩ := faultsAt_truth.mp hfaults
      exact .truth (by decide) hd h
    · obtain ⟨d, rest, hd, rfl, h⟩ := faultsAt_scripts.mp hfaults
      exact .scripts hd h
    · obtain ⟨e, he, h, rfl⟩ := Checks.faultsAt_strays.mp hfaults
      exact .key he h
  · intro h
    cases h with
    | key he h => exact ⟨_, by simp [issueParts], Checks.faultsAt_strays.mpr ⟨_, he, h, rfl⟩⟩
    | image hd h => exact ⟨_, by simp [issueParts], faultsAt_image.mpr ⟨_, hd, h, rfl⟩⟩
    | credential hname hd h =>
      refine ⟨_, ?_, faultsAt_credential.mpr ⟨_, hd, h, rfl⟩⟩
      simp only [List.mem_cons, List.not_mem_nil, or_false] at hname
      rcases hname with rfl | rfl | rfl <;> simp [issueParts]
    | truth hname hd h =>
      refine ⟨_, ?_, faultsAt_truth.mpr ⟨_, hd, h, rfl⟩⟩
      simp only [List.mem_cons, List.not_mem_nil, or_false] at hname
      rcases hname with rfl | rfl <;> simp [issueParts]
    | scripts hd h => exact ⟨_, by simp [issueParts], faultsAt_scripts.mpr ⟨_, _, hd, rfl, h⟩⟩

end

/-- Whatever the entries of a mapping are: it stands for a configuration exactly if the check gives
this configuration, and it stands for one exactly if no place in it offends. Where the check fails it
names the places that offend and no others, and at least one, unless a key holds half of a surrogate
pair. Then it has one issue, which names the mapping. -/
theorem ofDatum_iff_describes (entries : Entries LooseText) :
    (∀ c, ofDatum (.map entries) = .ok c ↔ Describes entries c) ∧
    ((∃ c, Describes entries c) ↔ ∀ place, ¬ OffendsAt entries place) ∧
    ∀ issues, ofDatum (.map entries) = .error issues → issues ≠ [] ∧
      (¬ HasLooseKey entries →
        ∀ place, (∃ issue ∈ issues, issue.place.take 2 = place) ↔ OffendsAt entries place) ∧
      (HasLooseKey entries → issues = [⟨[], .notUtf8⟩]) := by
  have hfaults : ∀ place, FaultsAt 2 (ofEntries entries).issues place ↔ OffendsAt entries place :=
    fun _ => faultsAt_ofEntries
  refine ⟨fun c => ?_, ?_, fun issues h => ⟨fun hnil => ?_, fun hkey place => ?_, fun hkey => ?_⟩⟩
  · rw [ofDatum, Checks.record_eq_ok_iff fun h => (ofEntries_eq_ok_iff.mp h).keys,
      ofEntries_eq_ok_iff]
  · simp only [← hfaults, ← ofEntries_eq_ok_iff]
    rw [← Checked.issues_eq_nil_iff ofEntries_ne_error_nil]
    constructor
    · intro hnil place
      rw [hnil]
      exact faultsAt_nil
    · intro hnone
      refine List.eq_nil_iff_forall_not_mem.mpr fun issue hissue => ?_
      exact hnone _ ⟨issue, hissue, rfl⟩
  · exact Checks.record_ne_error_nil ofEntries_ne_error_nil (hnil ▸ h)
  · rw [ofDatum, Checks.record_of_not_hasLooseKey hkey] at h
    have hissues : (ofEntries entries).issues = issues := by
      rw [h]
      rfl
    rw [← hfaults, hissues]
    exact Iff.rfl
  · rw [ofDatum, Checks.record_of_hasLooseKey hkey] at h
    exact (Except.error.inj h).symm

/-- A number for a name and the two forms of a script; a misspelt key beside a script without content;
and a key that is half of a surrogate pair beside a field that is wrong. -/
theorem ofDatum_iff_describes_of_mappings :
    let entries : Entries LooseText := [(.text "user", .scalar (.int 7)),
      (.text "init_sql", .list [.text "a.sql", .map [(.text "inline", .text "SELECT 1;")]])]
    let others : Entries LooseText := [(.text "usr", .null),
      (.text "init_sql", .list [.text "a.sql", .map []])]
    let half : LooseText := ⟨[.surrogate 0x3d]⟩
    let loose : Entries LooseText := [(.text "image", .null), (.text half, .null)]
    Describes entries ⟨"postgis", none, some "7", none, false, false,
      [.path "a.sql", .inline "SELECT 1;"]⟩ ∧
    (∃ issues, ofDatum (.map others) = .error issues ∧ issues ≠ [] ∧
      OffendsAt others [.key "usr"] ∧ OffendsAt others [.key "init_sql", .index 1] ∧
      ¬ OffendsAt others [.key "init_sql", .index 0]) ∧
    HasLooseKey loose ∧ ofDatum (.map loose) = .error [⟨[], .notUtf8⟩] := by
  intro entries others half loose
  have hissues : ofDatum (.map others) =
      .error [⟨[.key "init_sql", .index 1], .brokenRule Script.oneFieldRule⟩,
        ⟨[.key "usr"], .unknownKey⟩] := rfl
  have hothers : ¬ HasLooseKey others := by
    rw [← Checks.any_isLooseKey_iff]
    decide
  have hloose : HasLooseKey loose := ⟨_, List.mem_cons_of_mem _ List.mem_cons_self, half, rfl, rfl⟩
  obtain ⟨hne, hplaces, -⟩ := (ofDatum_iff_describes others).2.2 _ hissues
  have hplaces := hplaces hothers
  refine ⟨((ofDatum_iff_describes entries).1 _).mp rfl, ⟨_, hissues, hne, (hplaces _).mp ?_,
    (hplaces _).mp ?_, fun h => absurd ((hplaces _).mpr h) ?_⟩, hloose, ?_⟩
  · decide
  · decide
  · decide
  · exact congrArg _ (((ofDatum_iff_describes loose).2.2 _ rfl).2.2 hloose)

/-- A set without members passes for a list, and the configuration is the default. -/
theorem scripts_accept_empty_set :
    let entries : Entries LooseText := [(.text "init_sql", .set [])]
    (∀ e ∈ entries, ∃ name ∈ fields, e.1 = .text name) ∧
      ofDatum (.map entries) = .ok default ∧
      ¬ ∃ items, Datum.entry? entries "init_sql" = some (.list items) := by
  refine ⟨by decide, rfl, ?_⟩
  rintro ⟨items, hitems⟩
  cases hitems

end ImageConfig
end DbImage
