import DbImage.Config.Check
import DbImage.Proofs.Files.Loose
import DbImage.Proofs.Image.BuilderChain
import DbImage.Proofs.Image.Scripts
import Mathlib.Data.List.Basic

/-!
# Configurations and chains of builder calls

A configuration asks for calls and says nothing about their order, except for the scripts.  `Performs`
says that a chain makes these calls.  All such chains have the configuration's outline, so building is
the same as making the calls in any order that keeps the scripts in theirs.  A chain fails for an
inline script with half of a surrogate pair, and so does building.  In the other direction the outline
of a chain is written down as a configuration again, with paths that are seen from where they are.
-/

namespace DbImage

open Files (Reference)

namespace ImageKind

theorem ofWord?_eq_some_iff {word : String} {k : ImageKind} :
    ofWord? word = some k ↔ word = k.word := by
  constructor
  · intro h
    have hfound := List.find?_some h
    simp only [beq_iff_eq] at hfound
    exact hfound.symm
  · intro h
    rw [h, ofWord?_word]

end ImageKind

namespace Image

variable {τ : Type} [DecidableEq τ] [TextLike τ]

/-- What a chain makes of an image depends on its outline alone. -/
theorem calls_eq_of_outline (k : ImageKind) (p : Postgres τ) {cs ds : List (BuilderCall τ)}
    (hcs : ∀ v, .initSql v ∈ cs → ∃ s, Source.ofValue v = .ok s)
    (hds : ∀ v, .initSql v ∈ ds → ∃ s, Source.ofValue v = .ok s)
    (h : Outline.ofCalls cs = Outline.ofCalls ds) :
    ∃ q, (k.image p).calls cs = .ok (k.image q) ∧ (k.image p).calls ds = .ok (k.image q) := by
  obtain ⟨q, hq⟩ := (Postgres.exists_run_iff (p := p)).mpr hcs
  obtain ⟨r, hr⟩ := (Postgres.exists_run_iff (p := p)).mpr hds
  have hqr : q = r := (Postgres.normalForm_run hq).unique (h ▸ Postgres.normalForm_run hr)
  subst hqr
  exact ⟨q, calls_image_eq_ok.mpr ⟨q, hq, rfl⟩, calls_image_eq_ok.mpr ⟨q, hr, rfl⟩⟩

omit [DecidableEq τ] in
/-- Where every script that fails does so in one way, a chain with such a script fails in this way. -/
theorem calls_eq_error {k : ImageKind} {p : Postgres τ} {cs : List (BuilderCall τ)} {f : Failure}
    (hcs : ∀ v e, .initSql v ∈ cs → Source.ofValue v = .error e → e = f)
    (hfails : ∃ v e, .initSql v ∈ cs ∧ Source.ofValue v = .error e) :
    (k.image p).calls cs = .error f := by
  rw [calls_image]
  cases hrun : p.run cs with
  | error e =>
    obtain ⟨v, hv, he⟩ := Postgres.exists_ofValue_of_run_eq_error hrun
    rw [hcs v e hv he]
    rfl
  | ok q =>
    obtain ⟨v, e, hv, he⟩ := hfails
    obtain ⟨s, hs⟩ := Postgres.exists_run_iff.mp ⟨q, hrun⟩ v hv
    rw [he] at hs
    cases hs

end Image

/-! ## Chains that do what a configuration asks for -/

namespace BuilderCall

variable {τ : Type}

def dbName? : BuilderCall τ → Option τ
  | dbName s => some s
  | _ => none

def user? : BuilderCall τ → Option τ
  | user s => some s
  | _ => none

def password? : BuilderCall τ → Option τ
  | password s => some s
  | _ => none

def script? : BuilderCall τ → Option (SourceValue τ)
  | initSql v => some v
  | _ => none

theorem mem_filterMap_script? {cs : List (BuilderCall τ)} {v : SourceValue τ} :
    v ∈ cs.filterMap script? ↔ .initSql v ∈ cs := by
  rw [List.mem_filterMap]
  constructor
  · intro h
    obtain ⟨c, hc, hv⟩ := h
    cases c <;> cases hv
    exact hc
  · exact fun h => ⟨_, h, rfl⟩

theorem sources_ofCalls [DecidableEq τ] [TextLike τ] (cs : List (BuilderCall τ)) :
    (Outline.ofCalls cs).sources =
      (cs.filterMap script?).filterMap fun v => (Source.ofValue v).toOption := by
  rw [List.filterMap_filterMap]
  refine congrArg (List.filterMap · cs) (funext fun c => ?_)
  cases c <;> rfl

end BuilderCall

namespace Script

/-- Where the content of a script comes from, if it has one. Paths are seen from `base`. -/
def source? (base : Reference LooseText) : Script → Option (Source LooseText)
  | path text => some (.reference (base.under (.ofLoose text)))
  | inline text => text.toString?.map fun s => .inline s.toUTF8

theorem toOption_ofValue_value (base : Reference LooseText) (s : Script) :
    (Source.ofValue (s.value base)).toOption = s.source? base := by
  cases s with
  | path text => rfl
  | inline text =>
    have hutf8 : TextLike.utf8? text = text.toString?.map String.toUTF8 := rfl
    rw [value, Source.ofValue, hutf8, source?]
    cases text.toString? <;> rfl

/-- A script is refused if it is given inline and holds half of a surrogate pair. -/
theorem ofValue_value_eq_error_iff {base : Reference LooseText} {s : Script} {f : Failure} :
    Source.ofValue (s.value base) = .error f ↔
      (∃ text, s = .inline text ∧ text.toString? = none) ∧ f = .unencodable := by
  cases s with
  | path text => simp [value, Source.ofValue]
  | inline text =>
    have hutf8 : TextLike.utf8? text = text.toString?.map String.toUTF8 := rfl
    rw [value, Source.ofValue, hutf8]
    cases htext : text.toString? with
    | none => simp [htext, eq_comm]
    | some s => simp [htext]

end Script

namespace ImageConfig

/-- The chain makes one call for each thing that the configuration sets, in any order, and one for
each script, in the order of the scripts. -/
structure Performs (c : ImageConfig) (base : Reference LooseText)
    (cs : List (BuilderCall LooseText)) : Prop where
  dbName : cs.filterMap BuilderCall.dbName? = c.dbName.toList
  user : cs.filterMap BuilderCall.user? = c.user.toList
  password : cs.filterMap BuilderCall.password? = c.password.toList
  hostAuth : cs.count .hostAuth = if c.hostAuth then 1 else 0
  fsyncEnabled : cs.count .fsyncEnabled = if c.fsyncEnabled then 1 else 0
  scripts : cs.filterMap BuilderCall.script? = c.scripts.map (·.value base)

/-- What the configuration asks for, without an order between its settings. -/
def outline (c : ImageConfig) (base : Reference LooseText) : Outline LooseText :=
  ⟨c.dbName, c.user, c.password, c.hostAuth, c.fsyncEnabled, c.scripts.filterMap (·.source? base)⟩

/-- Some inline script holds half of a surrogate pair, so that it has no bytes. -/
def IsUnencodable (c : ImageConfig) : Prop :=
  ∃ text, .inline text ∈ c.scripts ∧ text.toString? = none

variable {c : ImageConfig} {base : Reference LooseText} {cs : List (BuilderCall LooseText)}

theorem filterMap_ofValue (base : Reference LooseText) (ss : List Script) :
    (ss.map (·.value base)).filterMap (fun v => (Source.ofValue v).toOption) =
      ss.filterMap (·.source? base) := by
  rw [List.filterMap_map]
  exact congrArg (List.filterMap · ss) (funext fun s => s.toOption_ofValue_value base)

section

variable (hscripts : cs.filterMap BuilderCall.script? = c.scripts.map (·.value base))

include hscripts

/-- A chain with the scripts of the configuration is refused for those that have no bytes. -/
theorem ofValue_eq_error_iff {f : Failure} :
    (∃ v, .initSql v ∈ cs ∧ Source.ofValue v = .error f) ↔ c.IsUnencodable ∧ f = .unencodable := by
  have hmem : ∀ v, .initSql v ∈ cs ↔ ∃ s ∈ c.scripts, s.value base = v := fun v => by
    rw [← BuilderCall.mem_filterMap_script?, hscripts, List.mem_map]
  simp only [hmem, IsUnencodable]
  constructor
  · rintro ⟨_, ⟨s, hs, rfl⟩, hf⟩
    obtain ⟨⟨text, rfl, htext⟩, rfl⟩ := Script.ofValue_value_eq_error_iff.mp hf
    exact ⟨⟨text, hs, htext⟩, rfl⟩
  · rintro ⟨⟨text, hs, htext⟩, rfl⟩
    exact ⟨_, ⟨_, hs, rfl⟩, Script.ofValue_value_eq_error_iff.mpr ⟨⟨text, rfl, htext⟩, rfl⟩⟩

theorem exists_ofValue (hc : ¬ c.IsUnencodable) {v : SourceValue LooseText}
    (hv : .initSql v ∈ cs) : ∃ s, Source.ofValue v = .ok s := by
  cases hs : Source.ofValue v with
  | ok s => exact ⟨s, rfl⟩
  | error f => exact absurd ((ofValue_eq_error_iff hscripts).mp ⟨v, hv, hs⟩).1 hc

theorem calls_eq_error {k : ImageKind} {p : Postgres LooseText} (hc : c.IsUnencodable) :
    (k.image p).calls cs = .error .unencodable := by
  obtain ⟨v, hv, hfails⟩ := (ofValue_eq_error_iff hscripts).mpr ⟨hc, rfl⟩
  refine Image.calls_eq_error (fun w e hw he => ?_) ⟨v, _, hv, hfails⟩
  exact ((ofValue_eq_error_iff hscripts).mp ⟨w, hw, he⟩).2

end

theorem contains_of_count {b : Bool} {x : BuilderCall LooseText} (h : cs.count x = if b then 1 else 0) :
    cs.contains x = b := by
  rw [List.contains_eq_mem]
  cases b with
  | true =>
    have hpos : 0 < cs.count x := by
      rw [h]
      exact Nat.one_pos
    exact decide_eq_true (List.count_pos_iff.mp hpos)
  | false => exact decide_eq_false (List.count_eq_zero.mp h)

/-- The order in which a chain does what the configuration asks for does not show. -/
theorem Performs.outline_eq (h : c.Performs base cs) : Outline.ofCalls cs = c.outline base := by
  have hlast : ∀ o : Option LooseText, o.toList.getLast? = o := by
    intro o
    cases o <;> rfl
  have hdbName : (Outline.ofCalls cs).dbName = c.dbName :=
    (congrArg List.getLast? h.dbName).trans (hlast _)
  have huser : (Outline.ofCalls cs).user = c.user :=
    (congrArg List.getLast? h.user).trans (hlast _)
  have hpassword : (Outline.ofCalls cs).password = c.password :=
    (congrArg List.getLast? h.password).trans (hlast _)
  have hsources : (Outline.ofCalls cs).sources = c.scripts.filterMap (·.source? base) := by
    rw [BuilderCall.sources_ofCalls, h.scripts, filterMap_ofValue]
  rw [outline, ← hdbName, ← huser, ← hpassword, ← hsources, ← contains_of_count h.hostAuth,
    ← contains_of_count h.fsyncEnabled]
  rfl

/-- What is picked from the calls of a configuration, part by part. -/
theorem filterMap_calls {α : Type} (f : BuilderCall LooseText → Option α) (c : ImageConfig)
    (base : Reference LooseText) :
    (c.calls base).filterMap f =
      (c.dbName.bind fun s => f (.dbName s)).toList
        ++ (c.user.bind fun s => f (.user s)).toList
        ++ (c.password.bind fun s => f (.password s)).toList
        ++ (if c.hostAuth then (f .hostAuth).toList else [])
        ++ (if c.fsyncEnabled then (f .fsyncEnabled).toList else [])
        ++ c.scripts.filterMap fun s => f (.initSql (s.value base)) := by
  have hoption : ∀ (o : Option LooseText) (g : LooseText → BuilderCall LooseText),
      (o.map g).toList.filterMap f = (o.bind fun s => f (g s)).toList := by
    intro o g
    cases o with
    | none => rfl
    | some s => cases hs : f (g s) <;> simp [hs]
  have hswitch : ∀ (b : Bool) (x : BuilderCall LooseText),
      (if b then [x] else []).filterMap f = if b then (f x).toList else [] := by
    intro b x
    cases b with
    | false => rfl
    | true => cases hx : f x <;> simp [hx]
  simp only [calls, List.filterMap_append, hoption, hswitch, List.filterMap_map]
  rfl

/-- The calls in the order in which building makes them. -/
theorem performs_calls (c : ImageConfig) (base : Reference LooseText) :
    c.Performs base (c.calls base) := by
  constructor
  · rw [filterMap_calls]
    simp [BuilderCall.dbName?]
  · rw [filterMap_calls]
    simp [BuilderCall.user?]
  · rw [filterMap_calls]
    simp [BuilderCall.password?]
  · rw [List.count_eq_length_filter, ← List.filterMap_eq_filter, filterMap_calls]
    simp [Option.guard, apply_ite List.length]
  · rw [List.count_eq_length_filter, ← List.filterMap_eq_filter, filterMap_calls]
    simp [Option.guard, apply_ite List.length]
  · rw [filterMap_calls]
    simp [BuilderCall.script?]

/-! ## Building -/

theorem build_of_word {k : ImageKind} (h : c.image = k.word) (base : String) :
    c.build base = (k.image .default).calls (c.calls (.ofLoose base)) := by
  have hword : (LooseText.toString? k.word).bind ImageKind.ofWord? = some k := by
    rw [LooseText.toString?_ofString, Option.bind_some, ImageKind.ofWord?_eq_some_iff]
  rw [build, h, ImageKind.ofWord, hword]
  rfl

/-- An image of an unknown name is never built. -/
theorem build_of_unknown (h : ∀ k : ImageKind, c.image ≠ k.word) (base : String) :
    c.build base = .error (.config (.unknownImage c.image ImageKind.words)) := by
  have hword : c.image.toString?.bind ImageKind.ofWord? = none := by
    rw [Option.bind_eq_none_iff]
    intro s hs
    rw [LooseText.toString?_eq_some_iff] at hs
    refine Option.eq_none_iff_forall_ne_some.mpr fun k hk => h k ?_
    rw [hs, ImageKind.ofWord?_eq_some_iff.mp hk]
  rw [build, ImageKind.ofWord, hword]
  rfl

/-- Building comes to the same as any chain with the scripts and the outline of the configuration. If
no script is without bytes both come to an image, and otherwise both fail. -/
theorem calls_eq_build {b : String} {k : ImageKind} (hk : c.image = k.word)
    (hscripts : cs.filterMap BuilderCall.script? = c.scripts.map (·.value (.ofLoose b)))
    (houtline : Outline.ofCalls cs = c.outline (.ofLoose b)) :
    (k.image .default).calls cs = c.build b ∧ (¬ c.IsUnencodable → ∃ i, c.build b = .ok i) := by
  have hbuild := performs_calls c (.ofLoose b)
  rw [build_of_word hk]
  by_cases hc : c.IsUnencodable
  · rw [calls_eq_error hscripts hc, calls_eq_error hbuild.scripts hc]
    exact ⟨rfl, fun h => absurd hc h⟩
  · obtain ⟨q, hcs, hds⟩ := Image.calls_eq_of_outline k .default
      (fun _ => exists_ofValue hscripts hc) (fun _ => exists_ofValue hbuild.scripts hc)
      (houtline.trans hbuild.outline_eq.symm)
    rw [hcs, hds]
    exact ⟨rfl, fun _ => ⟨_, rfl⟩⟩

/-- Building fails for an unknown name and for a script without bytes, and for nothing else. -/
theorem build_eq_error_iff {base : String} {f : Failure} :
    c.build base = .error f ↔
      (∀ k : ImageKind, c.image ≠ k.word) ∧
        f = .config (.unknownImage c.image ImageKind.words) ∨
      (∃ k : ImageKind, c.image = k.word) ∧ c.IsUnencodable ∧ f = .unencodable := by
  by_cases hword : ∃ k : ImageKind, c.image = k.word
  · have hunknown : ¬ ∀ k : ImageKind, c.image ≠ k.word := not_forall_not.mpr hword
    rw [or_iff_right (fun h => hunknown h.1), and_iff_right hword]
    obtain ⟨k, hk⟩ := hword
    have hcalls := performs_calls c (.ofLoose base)
    by_cases hc : c.IsUnencodable
    · rw [build_of_word hk, calls_eq_error hcalls.scripts hc, Except.error.injEq, and_iff_right hc,
        eq_comm]
    · obtain ⟨i, hi⟩ := (calls_eq_build hk hcalls.scripts hcalls.outline_eq).2 hc
      rw [hi]
      exact iff_of_false (fun h => (nomatch h)) fun h => hc h.1
  · rw [build_of_unknown (not_exists.mp hword), Except.error.injEq]
    simp only [hword, false_and, or_false, and_iff_right (not_exists.mp hword), eq_comm]

/-- A configuration whose image is built has a known name, and all its scripts have sources. -/
theorem known_of_build {base : String} {i : Image LooseText} (hi : c.build base = .ok i) :
    (∃ k : ImageKind, c.image = k.word) ∧ ¬ c.IsUnencodable := by
  have hword : ∃ k : ImageKind, c.image = k.word := by
    by_contra hnone
    rw [build_of_unknown (not_exists.mp hnone)] at hi
    cases hi
  refine ⟨hword, fun hc => ?_⟩
  rw [build_eq_error_iff.mpr (Or.inr ⟨hword, hc, rfl⟩)] at hi
  cases hi

/-- Without such a script every script has a source. -/
theorem map_some_filterMap_source? (base : Reference LooseText) (hc : ¬ c.IsUnencodable) :
    (c.scripts.filterMap (·.source? base)).map some = c.scripts.map (·.source? base) := by
  rw [List.map_filterMap]
  refine List.filterMap_eq_map_iff_forall_eq_some.mpr fun s hs => ?_
  cases s with
  | path text => rfl
  | inline text =>
    cases htext : text.toString? with
    | none => exact absurd ⟨text, hs, htext⟩ hc
    | some s => simp [Script.source?, htext]

/-- The image that is built stages the scripts, numbered in their order. -/
theorem copies_of_build {base : String} {i : Image LooseText} (hi : c.build base = .ok i) :
    i.contract.copies = (c.scripts.filterMap (·.source? (.ofLoose base))).mapIdx
      fun n s => ⟨Postgres.scriptTarget n, s⟩ := by
  obtain ⟨⟨k, hk⟩, -⟩ := known_of_build hi
  rw [build_of_word hk] at hi
  have hcalls : (k.image ⟨Postgres.defaultEnv, [], false⟩).calls (c.calls (.ofLoose base)) =
      .ok i := hi
  rw [Image.copies_of_calls hcalls, (performs_calls _ _).outline_eq]
  rfl

end ImageConfig

/-! ## Configurations as values

Every configuration passes the check of the value that it is written as. -/

namespace Script

def datum : Script → Datum LooseText
  | path text => .map [(.text "path", .text text)]
  | inline text => .map [(.text "inline", .text text)]

theorem ofDatum_datum (s : Script) : ofDatum s.datum = .ok s := by
  cases s <;> rfl

theorem elements_datum (n : Nat) (ss : List Script) :
    Checks.elements ofDatum n (ss.map datum) = .ok ss := by
  induction ss generalizing n with
  | nil => rfl
  | cons s ss ih =>
    rw [List.map_cons, Checks.elements, ofDatum_datum, ih]
    rfl

end Script

namespace ImageConfig

def textOrNull : Option LooseText → Datum LooseText
  | some s => .text s
  | none => .null

def datum (c : ImageConfig) : Datum LooseText :=
  .map
    [(.text "image", .text c.image), (.text "db_name", textOrNull c.dbName),
      (.text "user", textOrNull c.user), (.text "password", textOrNull c.password),
      (.text "host_auth", .scalar (.bool c.hostAuth)),
      (.text "fsync_enabled", .scalar (.bool c.fsyncEnabled)),
      (.text "init_sql", .list (c.scripts.map Script.datum))]

/-- Entries pass if each field does and no key is left over. -/
theorem ofEntries_eq_ok {entries : Entries LooseText}
    (himage : Checks.entry entries "image" default.image Checks.text = .ok c.image)
    (hdbName : Checks.entry entries "db_name" none (Checks.optional Checks.credential) =
      .ok c.dbName)
    (huser : Checks.entry entries "user" none (Checks.optional Checks.credential) = .ok c.user)
    (hpassword : Checks.entry entries "password" none (Checks.optional Checks.credential) =
      .ok c.password)
    (hhostAuth : Checks.entry entries "host_auth" false Checks.bool = .ok c.hostAuth)
    (hfsyncEnabled : Checks.entry entries "fsync_enabled" false Checks.bool = .ok c.fsyncEnabled)
    (hscripts : Checks.entry entries "init_sql" [] Script.listOfDatum = .ok c.scripts)
    (hstrays : Checks.strays fields entries = []) : ofEntries entries = .ok c := by
  unfold ofEntries
  rw [himage, hdbName, huser, hpassword, hhostAuth, hfsyncEnabled, hscripts, hstrays]
  rfl

theorem ofDatum_datum (c : ImageConfig) : ofDatum c.datum = .ok c := by
  have hcredential : ∀ (o : Option LooseText) (step : Step),
      (Checks.optional Checks.credential (textOrNull o)).inside step = .ok o := by
    intro o step
    cases o <;> rfl
  have hscripts : Script.listOfDatum (.list (c.scripts.map Script.datum)) = .ok c.scripts :=
    Script.elements_datum 0 c.scripts
  refine ofEntries_eq_ok rfl (hcredential _ _) (hcredential _ _) (hcredential _ _) rfl rfl ?_ rfl
  exact congrArg (Checked.inside (.key "init_sql")) hscripts

/-! ## Chains as configurations -/

/-- The script that a value stands for, if it is text or a path. -/
def scriptOf? : SourceValue LooseText → Option Script
  | .text s => some (.inline s)
  | .path r => some (.path r.text)
  | _ => none

/-- The configuration of what a chain comes to. -/
def ofChain (k : ImageKind) (cs : List (BuilderCall LooseText)) : ImageConfig where
  image := k.word
  dbName := (Outline.ofCalls cs).dbName
  user := (Outline.ofCalls cs).user
  password := (Outline.ofCalls cs).password
  hostAuth := (Outline.ofCalls cs).hostAuth
  fsyncEnabled := (Outline.ofCalls cs).fsyncEnabled
  scripts := (cs.filterMap BuilderCall.script?).filterMap scriptOf?

/-- Text, or a path in normal form. -/
def IsTextOrPath (v : SourceValue LooseText) : Prop :=
  (∃ s, v = .text s) ∨ ∃ r : Reference LooseText, r.IsLooseNormal ∧ v = .path r

/-- The script of a value is the value again, seen from the current directory. -/
theorem scriptOf?_of_isTextOrPath {v : SourceValue LooseText} (h : IsTextOrPath v) :
    ∃ s, scriptOf? v = some s ∧ s.value (.ofLoose ".") = v := by
  rcases h with ⟨s, rfl⟩ | ⟨r, hr, rfl⟩
  · exact ⟨_, rfl, rfl⟩
  · refine ⟨_, rfl, ?_⟩
    rw [Script.value, Reference.under_ofLoose_dot, Reference.ofLoose_text hr]

theorem map_value_filterMap_scriptOf? {vs : List (SourceValue LooseText)}
    (h : ∀ v ∈ vs, IsTextOrPath v) :
    (vs.filterMap scriptOf?).map (·.value (.ofLoose ".")) = vs := by
  induction vs with
  | nil => rfl
  | cons v vs ih =>
    rw [List.forall_mem_cons] at h
    obtain ⟨s, hs, hvalue⟩ := scriptOf?_of_isTextOrPath h.1
    rw [List.filterMap_cons_some hs, List.map_cons, hvalue, ih h.2]

/-- Settings and scripts of a chain are those of its configuration. -/
theorem outline_ofChain (k : ImageKind) {cs : List (BuilderCall LooseText)}
    (h : ∀ v, .initSql v ∈ cs → IsTextOrPath v) :
    cs.filterMap BuilderCall.script? = (ofChain k cs).scripts.map (·.value (.ofLoose ".")) ∧
      Outline.ofCalls cs = (ofChain k cs).outline (.ofLoose ".") := by
  have hscripts : cs.filterMap BuilderCall.script? =
      (ofChain k cs).scripts.map (·.value (.ofLoose ".")) :=
    (map_value_filterMap_scriptOf? fun v hv => h v (BuilderCall.mem_filterMap_script?.mp hv)).symm
  refine ⟨hscripts, ?_⟩
  rw [outline, ← filterMap_ofValue, ← hscripts, ← BuilderCall.sources_ofCalls]
  rfl

theorem isUnencodable_ofChain {k : ImageKind} {cs : List (BuilderCall LooseText)}
    (h : (ofChain k cs).IsUnencodable) : ∃ s, .initSql (.text s) ∈ cs ∧ s.toString? = none := by
  obtain ⟨text, hmem, htext⟩ := h
  obtain ⟨v, hv, hs⟩ := List.mem_filterMap.mp hmem
  refine ⟨text, BuilderCall.mem_filterMap_script?.mp ?_, htext⟩
  cases v <;> cases hs
  exact hv

/-- Building is making the calls that the configuration asks for, in any order that keeps the
scripts', with whatever these calls come to. It fails for an unknown name, and otherwise for an inline
script with half of a surrogate pair alone. What a chain of scripts that are text or paths comes to on
a default image, building some configuration comes to as well. -/
theorem build_iff_chain (c : ImageConfig) (base : String) :
    (∀ f, c.build base = .error f ↔
      (∀ k : ImageKind, c.image ≠ k.word) ∧
        f = .config (.unknownImage c.image ImageKind.words) ∨
      (∃ k : ImageKind, c.image = k.word) ∧ c.IsUnencodable ∧ f = .unencodable) ∧
    (∀ k : ImageKind, c.image = k.word → ∀ cs, c.Performs (.ofLoose base) cs →
      (k.image .default).calls cs = c.build base ∧
        (¬ c.IsUnencodable → ∃ i, c.build base = .ok i)) ∧
    ∀ (k : ImageKind) (cs : List (BuilderCall LooseText)),
      (∀ v, .initSql v ∈ cs → IsTextOrPath v) →
      ∃ c d, ofDatum d = .ok c ∧ (k.image .default).calls cs = c.build "." ∧
        ((∀ s, .initSql (.text s) ∈ cs → s.toString? ≠ none) → ∃ i, c.build "." = .ok i) := by
  refine ⟨fun f => build_eq_error_iff, fun k hk cs hcs => ?_, fun k cs hcs => ?_⟩
  · exact calls_eq_build hk hcs.scripts hcs.outline_eq
  · obtain ⟨hscripts, houtline⟩ := outline_ofChain k hcs
    obtain ⟨hbuild, hok⟩ := calls_eq_build (c := ofChain k cs) rfl hscripts houtline
    refine ⟨ofChain k cs, (ofChain k cs).datum, ofDatum_datum _, hbuild, fun htexts => hok fun hc => ?_⟩
    obtain ⟨s, hs, hnone⟩ := isUnencodable_ofChain hc
    exact htexts s hs hnone

/-- The scripts first and the settings in an order of their own; and a chain that sets the user twice
and names a file above the current directory. -/
theorem build_iff_chain_of_orders :
    let c : ImageConfig :=
      ⟨"postgres", some "app", some "", none, true, true, [.path "../b.sql", .inline "SELECT 1"]⟩
    let cs : List (BuilderCall LooseText) :=
      [.initSql (.path (.ofLoose "sql/../b.sql")), .fsyncEnabled, .user "",
        .initSql (.text "SELECT 1"), .hostAuth, .dbName "app"]
    let ds : List (BuilderCall LooseText) :=
      [.user "a", .initSql (.path (.ofLoose "/x/./../y.sql")), .user ""]
    (∃ i, (ImageKind.postgres.image .default).calls cs = .ok i ∧ c.build "sql" = .ok i) ∧
    ∃ c d i, ofDatum d = .ok c ∧ (ImageKind.postgis.image .default).calls ds = .ok i ∧
      c.build "." = .ok i := by
  intro c cs ds
  have hcs : c.Performs (.ofLoose "sql") cs := by
    constructor <;> decide
  have hc : ¬ c.IsUnencodable := by
    rintro ⟨text, htext, hnone⟩
    obtain rfl : text = "SELECT 1" := by simpa [c] using htext
    rw [LooseText.toString?_ofString] at hnone
    cases hnone
  have hds : ∀ v, .initSql v ∈ ds → IsTextOrPath v := by
    intro v hv
    have hpath : v = .path (.ofLoose "/x/./../y.sql") := by simpa [ds] using hv
    exact Or.inr ⟨_, Reference.isLooseNormal_ofLoose _, hpath⟩
  obtain ⟨-, hperforms, hconverse⟩ := build_iff_chain c "sql"
  obtain ⟨hcalls, hok⟩ := hperforms .postgres rfl cs hcs
  obtain ⟨i, hi⟩ := hok hc
  obtain ⟨c', d, hd, hcalls', hok'⟩ := hconverse .postgis ds hds
  obtain ⟨i', hi'⟩ := hok' fun s hs => absurd hs (by simp [ds])
  exact ⟨⟨i, hcalls.trans hi, hi⟩, c', d, i', hd, hcalls'.trans hi', hi'⟩

/-- Entries that pass, with an image that is known and a script that has no bytes. -/
theorem build_of_half_pair :
    let d : Datum LooseText := .map [(.text "image", .text "postgres"),
      (.text "init_sql", .list [.map [(.text "inline", .text ⟨[.surrogate 0x3d]⟩)]])]
    ∃ c, ofDatum d = .ok c ∧ (∃ k : ImageKind, c.image = k.word) ∧
      c.build "." = .error .unencodable ∧ ∀ cause, c.build "." ≠ .error (.config cause) := by
  exact ⟨⟨"postgres", none, none, none, false, false, [.inline ⟨[.surrogate 0x3d]⟩]⟩, rfl,
    ⟨.postgres, rfl⟩, rfl, nofun⟩

end ImageConfig
end DbImage
