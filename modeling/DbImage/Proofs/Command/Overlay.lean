import DbImage.Command.Run
import DbImage.Proofs.Config.Chains
import DbImage.Proofs.Config.Gathering
import DbImage.Proofs.Image.Scripts

/-!
# Settings on top of a configuration

A command builds the image of the configuration file and then makes further calls on it, for the
settings that it is given.  `overlay` is the one configuration that comes to the same: a setting takes
the place of the file's, switches add up, and the scripts of the settings follow those of the file.
The two sorts of scripts are seen from different directories, so in the overlay each path is written
as it is seen from the current one.  The settings add no inline script, so an overlay is refused for
one with half of a surrogate pair exactly if the configuration is.
-/

namespace DbImage

open Files (Action Host Reference)

namespace Script

/-- The script with its path as it is seen from the current directory. -/
def seenFrom (base : Reference LooseText) : Script → Script
  | path text => .path (base.under (.ofLoose text)).text
  | inline text => .inline text

theorem value_seenFrom {base : Reference LooseText} (hb : base.IsLooseNormal) (s : Script) :
    (s.seenFrom base).value (.ofLoose ".") = s.value base := by
  cases s with
  | inline text => rfl
  | path text =>
    have hnormal := hb.under (Reference.isLooseNormal_ofLoose text)
    rw [seenFrom, value, value, Reference.under_ofLoose_dot, Reference.ofLoose_text hnormal]

theorem seenFrom_eq_inline_iff {base : Reference LooseText} {s : Script} {text : LooseText} :
    s.seenFrom base = .inline text ↔ s = .inline text := by
  cases s <;> simp [seenFrom]

end Script

namespace Outline

/-- Of two chains one after the other, the settings of the second count. -/
theorem ofCalls_append (cs ds : List (BuilderCall LooseText)) :
    ofCalls (cs ++ ds) =
      ⟨(ofCalls ds).dbName.or (ofCalls cs).dbName, (ofCalls ds).user.or (ofCalls cs).user,
        (ofCalls ds).password.or (ofCalls cs).password,
        (ofCalls cs).hostAuth || (ofCalls ds).hostAuth,
        (ofCalls cs).fsyncEnabled || (ofCalls ds).fsyncEnabled,
        (ofCalls cs).sources ++ (ofCalls ds).sources⟩ := by
  simp [ofCalls, List.getLast?_append]

end Outline

namespace Command

/-- One configuration for a configuration and the settings on top of it. The paths of the
configuration are seen from `base`. -/
def overlay (r : Request) (c : ImageConfig) (base : Reference LooseText) : ImageConfig where
  image := (r.text? .image).getD c.image
  dbName := (r.text? .dbName).or c.dbName
  user := (r.text? .user).or c.user
  password := (r.text? .password).or c.password
  hostAuth := c.hostAuth || r.has .hostAuth
  fsyncEnabled := c.fsyncEnabled || r.has .fsync
  scripts := c.scripts.map (·.seenFrom base) ++ (r.values .initSql).map fun path => .path path

/-- The calls for the settings are those that a configuration with nothing else asks for. -/
theorem calls_eq_calls_overlay (r : Request) :
    calls r = (overlay r .default (.ofLoose ".")).calls (.ofLoose ".") := by
  have hscripts : (r.values .initSql).map
      (fun path : String => BuilderCall.initSql (.path (.ofLoose path))) =
      ((r.values .initSql).map fun path : String => Script.path path).map
        fun s => .initSql (s.value (.ofLoose ".")) := by
    rw [List.map_map]
    refine List.map_congr_left fun path _ => ?_
    rw [Function.comp_apply, Script.value, Reference.under_ofLoose_dot]
  simp only [calls, ImageConfig.calls, overlay, ImageConfig.default, Option.or_none,
    Bool.false_or, List.map_nil, List.nil_append, hscripts]

variable {c : ImageConfig} {base : Reference LooseText}

/-- No inline script comes from the settings. -/
theorem isUnencodable_overlay_iff {r : Request} :
    (overlay r c base).IsUnencodable ↔ c.IsUnencodable := by
  simp only [ImageConfig.IsUnencodable, overlay, List.mem_append, List.mem_map,
    Script.seenFrom_eq_inline_iff, exists_eq_right, reduceCtorEq, and_false, exists_false, or_false]

/-- First the calls of the configuration and then those of the settings: these have the scripts and
the outline of the overlay. -/
theorem scripts_calls_append (r : Request) (hb : base.IsLooseNormal) :
    (c.calls base ++ calls r).filterMap BuilderCall.script? =
      (overlay r c base).scripts.map (·.value (.ofLoose ".")) := by
  have hsettings := (ImageConfig.performs_calls (overlay r .default (.ofLoose "."))
    (.ofLoose ".")).scripts
  have hscripts : c.scripts.map (fun s => (s.seenFrom base).value (.ofLoose ".")) =
      c.scripts.map (·.value base) :=
    List.map_congr_left fun s _ => s.value_seenFrom hb
  rw [← calls_eq_calls_overlay] at hsettings
  rw [List.filterMap_append, (ImageConfig.performs_calls c base).scripts, hsettings]
  simp [overlay, ImageConfig.default, Function.comp_def, hscripts]

theorem outline_calls_append (r : Request) (hb : base.IsLooseNormal) :
    Outline.ofCalls (c.calls base ++ calls r) = (overlay r c base).outline (.ofLoose ".") := by
  have hconfig := (ImageConfig.performs_calls c base).outline_eq
  have hsettings := (ImageConfig.performs_calls (overlay r .default (.ofLoose "."))
    (.ofLoose ".")).outline_eq
  have hsources := BuilderCall.sources_ofCalls (c.calls base ++ calls r)
  rw [scripts_calls_append r hb, ImageConfig.filterMap_ofValue] at hsources
  rw [← calls_eq_calls_overlay] at hsettings
  rw [ImageConfig.outline, ← hsources, Outline.ofCalls_append, hconfig, hsettings]
  simp [ImageConfig.outline, overlay, ImageConfig.default]

/-- Building the configuration and making the further calls on the image is building the overlay. -/
theorem build_bind_calls (r : Request) (c : ImageConfig) (base : String) :
    (({ c with image := (r.text? .image).getD c.image } : ImageConfig).build base >>= fun i =>
      i.calls (calls r)) = (overlay r c (.ofLoose base)).build "." := by
  let named : ImageConfig := { c with image := (r.text? .image).getD c.image }
  change (named.build base >>= fun i => i.calls (calls r)) = _
  by_cases hk : ∃ k : ImageKind, named.image = k.word
  · obtain ⟨k, hword⟩ := hk
    have hnormal := Reference.isLooseNormal_ofLoose base
    have hoverlay : (k.image .default).calls (named.calls (.ofLoose base) ++ calls r) =
        (overlay r c (.ofLoose base)).build "." :=
      (ImageConfig.calls_eq_build (c := overlay r c (.ofLoose base)) hword
        (scripts_calls_append (c := named) r hnormal)
        (outline_calls_append (c := named) r hnormal)).1
    rw [ImageConfig.build_of_word hword, ← hoverlay, Image.calls_append]
    rfl
  · rw [not_exists] at hk
    rw [ImageConfig.build_of_unknown hk,
      ImageConfig.build_of_unknown (c := overlay r c (.ofLoose base)) hk]
    rfl

/-! ## The request -/

/-- The configuration file of a request. An empty path names none. -/
def Request.configFile? (r : Request) : Option String :=
  (r.value? .config).filter (!·.isEmpty)

theorem mem_order {r : Request} {s : Setting} : s ∈ r.order ↔ ∃ g ∈ r.given, g.1 = s := by
  have hfold : ∀ (gs : List Given) (seen : List Setting),
      s ∈ gs.foldl (fun seen g => if g.1 ∈ seen then seen else seen ++ [g.1]) seen ↔
        s ∈ seen ∨ ∃ g ∈ gs, g.1 = s := by
    intro gs
    induction gs with
    | nil => simp
    | cons g gs ih =>
      intro seen
      rw [List.foldl_cons, ih]
      by_cases hg : g.1 ∈ seen
      · rw [if_pos hg]
        constructor
        · exact fun h => h.imp_right fun ⟨g', hg', e⟩ => ⟨g', List.mem_cons_of_mem _ hg', e⟩
        · intro h
          rcases h with h | ⟨g', hg', rfl⟩
          · exact Or.inl h
          · rcases List.mem_cons.mp hg' with rfl | hg'
            · exact Or.inl hg
            · exact Or.inr ⟨g', hg', rfl⟩
      · rw [if_neg hg, List.mem_append, List.mem_singleton, or_assoc]
        simp [eq_comm]
  rw [Request.order, hfold]
  simp

theorem checkValues_eq_ok {h : Host} {gs : List Given} :
    checkValues h gs = .ok () ↔ ∀ g ∈ gs, checkValue h g.1 g.2 = .ok () := by
  induction gs with
  | nil => simp [checkValues]
  | cons g gs ih =>
    obtain ⟨s, value⟩ := g
    rw [checkValues, List.forall_mem_cons]
    cases hv : checkValue h s value with
    | error m => simp
    | ok u => simpa using ih

theorem checkValues_of_check {r : Request} {h : Host} (hr : r.check h = .ok ()) :
    checkValues h (r.order.flatMap fun s => (r.lookedAt s).map fun v => (s, v)) = .ok () := by
  rw [Request.check] at hr
  cases hvalues : checkValues h (r.order.flatMap fun s => (r.lookedAt s).map fun v => (s, v)) with
  | ok u => rfl
  | error m =>
    rw [hvalues] at hr
    cases hr

/-- In a request that passes, each value that counts passes. -/
theorem checkValue_of_check {r : Request} {h : Host} (hr : r.check h = .ok ()) {s : Setting}
    (hs : s ≠ .initSql) {value : String} (hv : r.value? s = some value) :
    checkValue h s value = .ok () := by
  have hgiven : ∃ g ∈ r.given, g.1 = s := by
    have hmem : value ∈ r.values s := List.mem_of_getLast? hv
    obtain ⟨g, hg, -⟩ := List.mem_map.mp hmem
    obtain ⟨hg, hname⟩ := List.mem_filter.mp hg
    exact ⟨g, hg, by simpa using hname⟩
  refine checkValues_eq_ok.mp (checkValues_of_check hr) (s, value)
    (List.mem_flatMap.mpr ⟨s, mem_order.mpr hgiven, ?_⟩)
  rw [Request.lookedAt, if_neg hs, hv]
  exact List.mem_map.mpr ⟨value, List.mem_singleton.mpr rfl, rfl⟩

/-- An image that is asked for by name is one that there is. -/
theorem exists_word_of_check {r : Request} {h : Host} (hr : r.check h = .ok ()) {name : String}
    (hname : r.value? .image = some name) : ∃ k : ImageKind, name = k.word := by
  have hcheck := checkValue_of_check hr (by decide) hname
  have hmem : name ∈ ImageKind.words := by
    by_contra hnot
    simp [checkValue, Setting.isFile, Setting.choices?, hnot] at hcheck
  obtain ⟨k, -, hk⟩ := List.mem_map.mp hmem
  exact ⟨k, hk.symm⟩

/-! ## The run -/

theorem configFile?_eq_some {r : Request} {path : String} (h : r.configFile? = some path) :
    r.value? .config = some path ∧ path.isEmpty = false := by
  rw [Request.configFile?, Option.filter_eq_some_iff] at h
  exact ⟨h.1, by simpa using h.2⟩

theorem startingPoint_of_no_file {r : Request} (hfile : r.configFile? = none) :
    startingPoint r = pure (.default, ".") := by
  rw [Request.configFile?, Option.filter_eq_none_iff] at hfile
  unfold startingPoint
  split
  · rfl
  · rename_i path hpath
    have hempty : path.isEmpty = true := by simpa using hfile path hpath
    rw [if_pos hempty]

/-- The image is that of the overlay over whatever configuration it starts from. -/
theorem fst_on_buildImage (r : Request) (h : Host) :
    ((buildImage r).on h).1 = ((startingPoint r).on h).1 >>= fun start =>
      (overlay r start.1 (.ofLoose start.2)).build "." := by
  rw [buildImage, Action.on_bind]
  rcases (startingPoint r).on h with ⟨e | start, h₁⟩
  · rfl
  · obtain ⟨c, base⟩ := start
    have hbuild := build_bind_calls r c base
    dsimp only
    rw [Action.on_bind, Action.on_ofExcept]
    change _ = (overlay r c (.ofLoose base)).build "."
    rw [← hbuild]
    cases ({ c with image := (r.text? .image).getD c.image } : ImageConfig).build base with
    | error e => rfl
    | ok i =>
      dsimp only
      rw [Action.on_bind, Action.on_ofExcept]
      change _ = i.calls (calls r)
      cases i.calls (calls r) with
      | error e => rfl
      | ok j => rfl

/-- The configuration that a file with this text comes to, with the variables of the environment and
the env file put in. -/
def configuration (r : Request) (h : Host) (text : String) : Except Failure ImageConfig := do
  let bindings ← ((Variables.gather none (r.value? .envFile)).on h).1
  ImageConfig.ofText (String.ofList (Text.unifyLineEnds text.toList)) bindings

variable {r : Request} {h : Host} {path text : String} {bytes : ByteArray}

theorem on_ofFile (hread : h.read path = .ok bytes) (htext : String.fromUTF8? bytes = some text)
    (b : Bindings) :
    (ImageConfig.ofFile path b).on h =
      (ImageConfig.ofText (String.ofList (Text.unifyLineEnds text.toList)) b,
        { h with log := h.log ++ [.parsingConfig path] }) := by
  have houtcome : ImageConfig.outcomeOfText h path =
      .ok (String.ofList (Text.unifyLineEnds text.toList)) := by
    rw [ImageConfig.outcomeOfText, hread]
    simp only [Variables.textOf, htext]
    rfl
  rw [ImageConfig.on_ofFile, houtcome]

theorem directoryOf_log (h : Host) (log : List Event) (path : String) :
    ImageConfig.directoryOf { h with log := log } path = ImageConfig.directoryOf h path := rfl

/-- What is done with the configuration of a file once its variables are gathered: whether it is
read on the machine as it was or with more in the log does not show. -/
theorem fst_on_gather_bind {α : Type} {f : ImageConfig → String → Except Failure α}
    (hread : h.read path = .ok bytes) (htext : String.fromUTF8? bytes = some text) :
    (((do
        let bindings ← Variables.gather none (r.value? .envFile)
        let c ← ImageConfig.ofFile path bindings
        MonadExcept.ofExcept (f c (ImageConfig.directoryOf (← get) path)) : Action α).on h).1) =
      configuration r h text >>= fun c => f c (ImageConfig.directoryOf h path) := by
  obtain ⟨log, hlog⟩ := Variables.onlyLogs_gather none (r.value? .envFile) h
  rw [Action.on_bind]
  rcases hrun : (Variables.gather none (r.value? .envFile)).on h with ⟨e | b, h₁⟩
  · have hfails : configuration r h text = .error e := by
      rw [configuration, hrun]
      rfl
    rw [hfails]
    rfl
  · rw [hrun] at hlog
    cases hlog
    have hread' : ({ h with log := log } : Host).read path = .ok bytes := hread
    have hconfig : configuration r h text =
        ImageConfig.ofText (String.ofList (Text.unifyLineEnds text.toList)) b := by
      rw [configuration, hrun]
      simp only [bind, Except.bind]
    rw [hconfig]
    dsimp only
    rw [Action.on_bind, on_ofFile hread' htext]
    cases ImageConfig.ofText (String.ofList (Text.unifyLineEnds text.toList)) b with
    | error e => rfl
    | ok c =>
      dsimp only
      rw [Action.on_bind, Action.on_get]
      dsimp only
      rw [Action.on_ofExcept, directoryOf_log, directoryOf_log]
      rfl

theorem fst_on_startingPoint (hfile : r.configFile? = some path) (hread : h.read path = .ok bytes)
    (htext : String.fromUTF8? bytes = some text) :
    ((startingPoint r).on h).1 =
      configuration r h text >>= fun c => .ok (c, ImageConfig.directoryOf h path) := by
  obtain ⟨hvalue, hne⟩ := configFile?_eq_some hfile
  have hstart : startingPoint r = (do
      let bindings ← Variables.gather none (r.value? .envFile)
      let c ← ImageConfig.ofFile path bindings
      MonadExcept.ofExcept (.ok (c, ImageConfig.directoryOf (← get) path))) := by
    unfold startingPoint
    rw [hvalue]
    dsimp only
    rw [if_neg (by simp [hne])]
    rfl
  rw [hstart]
  exact fst_on_gather_bind (f := fun c base => .ok (c, base)) hread htext

/-- Settings that change nothing about the image. -/
def addsNothing (r : Request) : Prop :=
  ∀ g ∈ r.given, g.1 ∈ [Setting.config, .envFile, .format, .out, .service]

theorem values_eq_nil (hr : addsNothing r) {s : Setting}
    (hs : s ∉ [Setting.config, .envFile, .format, .out, .service]) : r.values s = [] := by
  refine List.map_eq_nil_iff.mpr (List.filter_eq_nil_iff.mpr fun g hg hgs => hs ?_)
  exact beq_iff_eq.mp hgs ▸ hr g hg

theorem has_eq_false (hr : addsNothing r) {s : Setting}
    (hs : s ∉ [Setting.config, .envFile, .format, .out, .service]) : r.has s = false := by
  refine List.any_eq_false.mpr fun g hg hgs => hs ?_
  exact beq_iff_eq.mp hgs ▸ hr g hg

/-- Without settings of its own a request starts from the image of the configuration and leaves it. -/
theorem build_overlay_of_addsNothing (hr : addsNothing r) (c : ImageConfig) (base : String) :
    (overlay r c (.ofLoose base)).build "." = c.build base := by
  have hvalues : ∀ s, s ∉ [Setting.config, .envFile, .format, .out, .service] →
      r.text? s = none := by
    intro s hs
    rw [Request.text?, Request.value?, values_eq_nil hr hs]
    rfl
  have hcalls : calls r = [] := by
    rw [calls, hvalues .dbName (by decide), hvalues .user (by decide),
      hvalues .password (by decide), has_eq_false hr (s := .hostAuth) (by decide),
      has_eq_false hr (s := .fsync) (by decide), values_eq_nil hr (s := .initSql) (by decide)]
    rfl
  rw [← build_bind_calls, hcalls, hvalues .image (by decide), Option.getD_none]
  cases c.build base <;> rfl

/-- What is copied into the container: the scripts of the configuration, seen from its directory, and
then the paths of the settings as they are given. An inline script without bytes has no source. -/
def scriptSources (r : Request) (c : ImageConfig) (base : Reference LooseText) :
    List (Option (Source LooseText)) :=
  c.scripts.map (·.source? base)
    ++ (r.values .initSql).map fun path => some (.reference (.ofLoose path))

theorem map_source?_scripts_overlay (r : Request) (c : ImageConfig) (hb : base.IsLooseNormal) :
    (overlay r c base).scripts.map (·.source? (.ofLoose ".")) = scriptSources r c base := by
  rw [overlay, scriptSources, List.map_append, List.map_map, List.map_map]
  congr 1
  · refine List.map_congr_left fun s _ => ?_
    rw [Function.comp_apply, ← Script.toOption_ofValue_value, s.value_seenFrom hb,
      Script.toOption_ofValue_value]
  · refine List.map_congr_left fun path _ => ?_
    rw [Function.comp_apply, Script.source?, Reference.under_ofLoose_dot]

/-- All scripts of both have sources, and they are numbered in one row. -/
theorem copies_of_build_overlay {c : ImageConfig} {base : String} {i : Image LooseText}
    (hi : (overlay r c (.ofLoose base)).build "." = .ok i) :
    i.contract.copies.map some = (scriptSources r c (.ofLoose base)).mapIdx
      fun n s? => s?.map fun s => ⟨Postgres.scriptTarget n, s⟩ := by
  have hsources := ImageConfig.map_some_filterMap_source? (.ofLoose ".")
    (ImageConfig.known_of_build hi).2
  rw [ImageConfig.copies_of_build hi,
    ← map_source?_scripts_overlay r c (Reference.isLooseNormal_ofLoose base), ← hsources]
  exact List.ext_getElem (by simp) fun n _ _ => by simp

/-- A command builds the image of one configuration: the file's, or the default one, with the settings
on top. It fails where the file does not come to a configuration, for an unknown image where no image
is named in the settings, and for an inline script of the file with half of a surrogate pair. -/
theorem buildImage_eq_overlay (r : Request) (h : Host) (hr : r.check h = .ok ()) :
    (r.configFile? = none → ∃ i, ((buildImage r).on h).1 = .ok i ∧
      (overlay r .default (.ofLoose ".")).build "." = .ok i) ∧
    (∀ path bytes text, r.configFile? = some path → h.read path = .ok bytes →
      String.fromUTF8? bytes = some text →
      ((∃ f, ((buildImage r).on h).1 = .error f) ↔
        (∃ f, configuration r h text = .error f) ∨
          ∃ c, configuration r h text = .ok c ∧
            (r.value? .image = none ∧ (∀ k : ImageKind, c.image ≠ k.word) ∨ c.IsUnencodable)) ∧
      (∀ f, configuration r h text = .error f → ((buildImage r).on h).1 = .error f) ∧
      (∀ c, configuration r h text = .ok c → ((buildImage r).on h).1 =
        (overlay r c (.ofLoose (ImageConfig.directoryOf h path))).build ".") ∧
      (addsNothing r → ((buildImage r).on h).1 =
        ((do
          let bindings ← Variables.gather none (r.value? .envFile)
          ImageConfig.load path bindings : Action (Image LooseText)).on h).1)) ∧
    ∀ (c : ImageConfig) (base : String) i, (overlay r c (.ofLoose base)).build "." = .ok i →
      i.contract.copies.map some = (scriptSources r c (.ofLoose base)).mapIdx
        fun n s? => s?.map fun s => ⟨Postgres.scriptTarget n, s⟩ := by
  have hfails : ∀ (c : ImageConfig) (base : String),
      (∃ f, (overlay r c (.ofLoose base)).build "." = .error f) ↔
        r.value? .image = none ∧ (∀ k : ImageKind, c.image ≠ k.word) ∨ c.IsUnencodable := by
    intro c base
    have hknown : (∀ k : ImageKind, (overlay r c (.ofLoose base)).image ≠ k.word) ↔
        r.value? .image = none ∧ ∀ k : ImageKind, c.image ≠ k.word := by
      cases hname : r.value? .image with
      | none => simp [overlay, Request.text?, hname]
      | some name =>
        obtain ⟨k, rfl⟩ := exists_word_of_check hr hname
        simp [overlay, Request.text?, hname]
    have hscripts : (overlay r c (.ofLoose base)).IsUnencodable ↔ c.IsUnencodable :=
      isUnencodable_overlay_iff
    rw [← hknown, ← hscripts]
    simp only [ImageConfig.build_eq_error_iff, exists_or, exists_and_left, exists_eq, and_true]
    rw [← not_forall_not, or_and_left, and_iff_right (Classical.em _)]
  refine ⟨fun hfile => ?_, fun path bytes text hfile hread htext => ?_,
    fun c base i => copies_of_build_overlay⟩
  · rw [fst_on_buildImage, startingPoint_of_no_file hfile, Action.on_pure]
    change ∃ i, (overlay r .default (.ofLoose ".")).build "." = .ok i ∧ _
    cases hbuild : (overlay r .default (.ofLoose ".")).build "." with
    | ok i => exact ⟨i, rfl, rfl⟩
    | error f =>
      rcases (hfails .default ".").mp ⟨f, hbuild⟩ with ⟨-, hne⟩ | ⟨text, hmem, -⟩
      · exact absurd rfl (hne .postgis)
      · cases hmem
  · have hrun : ((buildImage r).on h).1 = configuration r h text >>= fun c =>
        (overlay r c (.ofLoose (ImageConfig.directoryOf h path))).build "." := by
      rw [fst_on_buildImage, fst_on_startingPoint hfile hread htext]
      cases configuration r h text <;> rfl
    refine ⟨?_, fun f hf => ?_, fun c hc => ?_, fun hadds => ?_⟩
    · rw [hrun]
      cases hc : configuration r h text with
      | error f => simp [bind, Except.bind]
      | ok c => simpa [bind, Except.bind] using hfails c _
    · rw [hrun, hf]
      rfl
    · rw [hrun, hc]
      rfl
    · rw [hrun]
      simp only [build_overlay_of_addsNothing hadds]
      exact (fst_on_gather_bind (f := ImageConfig.build) hread htext).symm

/-- A file in a directory of its own, written with other line ends and with a variable that the
environment binds. The settings change the user and add a script. -/
theorem buildImage_eq_overlay_of_file :
    let r : Request := ⟨false, .describe,
      [(.config, "conf/db.yml"), (.user, ""), (.initSql, "extra.sql"), (.fsync, "")], []⟩
    let text := "image: postgres\r\nuser: $\x7bU\x7d\r\ninit_sql: [a.sql]\r\n"
    let h : Host :=
      { files := ⟨[(["w"], .directory), (["w", "conf"], .directory),
          (["w", "conf", "db.yml"], .file text.toUTF8)]⟩
        workingDirectory := ["w"]
        environment := [("U", "admin")]
        log := [] }
    let c : ImageConfig := ⟨"postgres", none, some "admin", none, false, false, [.path "a.sql"]⟩
    r.check h = .ok () ∧ configuration r h text = .ok c ∧
    ((buildImage r).on h).1 = (overlay r c (.ofLoose "/w/conf")).build "." := by
  intro r text h c
  have hr : r.check h = .ok () := Action.eq_ok_of_toOption (by decide +kernel)
  have hread : h.read "conf/db.yml" = .ok text.toUTF8 := Action.eq_ok_of_toOption (by decide +kernel)
  have htext : String.fromUTF8? text.toUTF8 = some text := by decide +kernel
  have hc : configuration r h text = .ok c := Action.eq_ok_of_toOption (by decide +kernel)
  have hfile : r.configFile? = some "conf/db.yml" := by decide
  have hbase : ImageConfig.directoryOf h "conf/db.yml" = "/w/conf" := by decide +kernel
  have hresult := ((buildImage_eq_overlay r h hr).2.1 _ _ _ hfile hread htext).2.2.1 c hc
  rw [hbase] at hresult
  exact ⟨hr, hc, hresult⟩

/-- A file that comes to a configuration with a known image, and no image of it is built. -/
theorem buildImage_of_half_pair :
    let r : Request := ⟨false, .describe, [(.config, "c.yml")], []⟩
    let text := "image: postgres\ninit_sql: [\x7binline: \"\\ud83d\"\x7d]\n"
    let h : Host :=
      { files := ⟨[(["c.yml"], .file text.toUTF8)]⟩, workingDirectory := [], environment := [],
        log := [] }
    r.check h = .ok () ∧
    (∃ c, configuration r h text = .ok c ∧ ∃ k : ImageKind, c.image = k.word) ∧
    ((buildImage r).on h).1 = .error .unencodable := by
  intro r text h
  let c : ImageConfig :=
    ⟨"postgres", none, none, none, false, false, [.inline ⟨[.surrogate 0x3d]⟩]⟩
  have hr : r.check h = .ok () := Action.eq_ok_of_toOption (by decide +kernel)
  have hc : configuration r h text = .ok c := Action.eq_ok_of_toOption (by decide +kernel)
  have hfails : ((buildImage r).on h).1 = .error .unencodable :=
    Action.eq_error_of_decide (by decide +kernel)
  exact ⟨hr, ⟨c, hc, .postgres, rfl⟩, hfails⟩

end Command
end DbImage
