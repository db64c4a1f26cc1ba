import DbImage.Image.Basic
import DbImage.Proofs.Bindings

/-!
# What a chain of builder calls comes to

The calls of a chain act on one another in few ways: of the values for one variable the last counts,
a switch stays on, and scripts pile up in order.  An `Outline` keeps just that of a chain, and
`normalForm_run` says which image the chain makes out of it, from any image to begin with.  The image
is determined by the outline, since the variables are left in ascending order as soon as one is set.
-/

namespace DbImage

open Bindings (Ascending get? last?)

attribute [ext] StagedItem Postgres

variable {τ : Type}

namespace Postgres

theorem ascending_env_setVariable (p : Postgres τ) (name : String) (value : τ) :
    Ascending (p.setVariable name value).env :=
  Bindings.ascending_sorted (Bindings.nodup_names_put (Bindings.nodup_names_ofPairs p.env) _ _)

theorem get?_env_setVariable (p : Postgres τ) (name : String) (value : τ) (other : String) :
    get? (p.setVariable name value).env other =
      if name = other then some value else last? p.env other := by
  have hn : ((Bindings.ofPairs p.env).put name value).names.Nodup :=
    Bindings.nodup_names_put (Bindings.nodup_names_ofPairs p.env) _ _
  rw [setVariable, Bindings.get?_sorted hn, Bindings.get?_put, Bindings.get?_ofPairs]

end Postgres

variable [TextLike τ]

namespace BuilderCall

/-- The variable that a call sets, with its value. -/
def setting? : BuilderCall τ → Option (String × τ)
  | hostAuth => some ("POSTGRES_HOST_AUTH_METHOD", TextLike.ofString "trust")
  | dbName s => some ("POSTGRES_DB", s)
  | user s => some ("POSTGRES_USER", s)
  | password s => some ("POSTGRES_PASSWORD", s)
  | initSql _ => none
  | fsyncEnabled => none

end BuilderCall

/-- What is left of a chain of calls when the order between different settings is forgotten. -/
structure Outline (τ : Type := String) where
  dbName : Option τ
  user : Option τ
  password : Option τ
  hostAuth : Bool
  fsyncEnabled : Bool
  sources : List (Source τ)

namespace Outline

/-- The last value of each setting, which switches were turned on, and the scripts in call order. -/
def ofCalls [DecidableEq τ] (cs : List (BuilderCall τ)) : Outline τ where
  dbName := (cs.filterMap fun | .dbName s => some s | _ => none).getLast?
  user := (cs.filterMap fun | .user s => some s | _ => none).getLast?
  password := (cs.filterMap fun | .password s => some s | _ => none).getLast?
  hostAuth := cs.contains .hostAuth
  fsyncEnabled := cs.contains .fsyncEnabled
  sources := cs.filterMap fun | .initSql v => (Source.ofValue v).toOption | _ => none

/-- Some call of the chain sets a variable. -/
def setsVariable (o : Outline τ) : Bool :=
  o.dbName.isSome || o.user.isSome || o.password.isSome || o.hostAuth

/-- The value that the chain gives a variable, if it sets it. -/
def valueOf? (o : Outline τ) (name : String) : Option τ :=
  if name = "POSTGRES_DB" then o.dbName
  else if name = "POSTGRES_USER" then o.user
  else if name = "POSTGRES_PASSWORD" then o.password
  else if name = "POSTGRES_HOST_AUTH_METHOD" ∧ o.hostAuth = true then some (TextLike.ofString "trust")
  else none

theorem valueOf?_of_not_setsVariable {o : Outline τ} (h : o.setsVariable = false) (name : String) :
    o.valueOf? name = none := by
  simp only [setsVariable, Bool.or_eq_false_iff, Option.isSome_eq_false_iff,
    Option.isNone_iff_eq_none] at h
  obtain ⟨⟨⟨hd, hu⟩, hp⟩, ha⟩ := h
  simp [valueOf?, hd, hu, hp, ha]

/-- A setting in front of a chain adds its variable where the chain does not set it. -/
theorem ofCalls_cons_of_setting [DecidableEq τ] {c : BuilderCall τ} {name : String} {value : τ}
    (h : c.setting? = some (name, value)) (cs : List (BuilderCall τ)) :
    (ofCalls (c :: cs)).setsVariable = true ∧
    (∀ other, (ofCalls (c :: cs)).valueOf? other =
      ((ofCalls cs).valueOf? other).or (if name = other then some value else none)) ∧
    (ofCalls (c :: cs)).sources = (ofCalls cs).sources ∧
    (ofCalls (c :: cs)).fsyncEnabled = (ofCalls cs).fsyncEnabled := by
  cases c <;> simp only [BuilderCall.setting?, Option.some.injEq, Prod.mk.injEq, reduceCtorEq] at h
  all_goals
    obtain ⟨rfl, rfl⟩ := h
    refine ⟨by simp [ofCalls, setsVariable], fun other => ?_, by simp [ofCalls],
      by simp [ofCalls]⟩
    unfold valueOf?
    grind [ofCalls]

end Outline

/-- The image `q` that a chain with outline `o` makes of the image `p`. -/
structure NormalForm (p : Postgres τ) (o : Outline τ) (q : Postgres τ) : Prop where
  /-- Without a setting the variables are left as they were given, in whatever order. -/
  env_unset : o.setsVariable = false → q.env = p.env
  env_ascending : o.setsVariable = true → Ascending q.env
  env_value : o.setsVariable = true →
    ∀ name, get? q.env name = (o.valueOf? name).or (last? p.env name)
  initSql : q.initSql = p.initSql ++
    o.sources.mapIdx fun k s => ⟨Postgres.scriptTarget (p.initSql.length + k), s⟩
  fsyncEnabled : q.fsyncEnabled = (p.fsyncEnabled || o.fsyncEnabled)

namespace NormalForm

/-- The normal form is one image. -/
theorem unique {p q r : Postgres τ} {o : Outline τ} (hq : NormalForm p o q) (hr : NormalForm p o r) :
    q = r := by
  have henv : q.env = r.env := by
    cases hs : o.setsVariable with
    | false => rw [hq.env_unset hs, hr.env_unset hs]
    | true =>
      refine Bindings.eq_of_get?_eq (hq.env_ascending hs) (hr.env_ascending hs) fun name => ?_
      rw [hq.env_value hs, hr.env_value hs]
  have hsql : q.initSql = r.initSql := by rw [hq.initSql, hr.initSql]
  have hsync : q.fsyncEnabled = r.fsyncEnabled := by rw [hq.fsyncEnabled, hr.fsyncEnabled]
  exact Postgres.ext henv hsql hsync

end NormalForm

/-! ## One call -/

namespace Postgres

variable {p q : Postgres τ}

/-- A setting in front of a chain counts where the chain does not set the same variable. -/
theorem normalForm_of_setVariable {name : String} {value : τ} {o o' : Outline τ}
    (h : NormalForm (p.setVariable name value) o q) (hset : o'.setsVariable = true)
    (hvalue : ∀ other, o'.valueOf? other =
      (o.valueOf? other).or (if name = other then some value else none))
    (hsources : o'.sources = o.sources) (hfsync : o'.fsyncEnabled = o.fsyncEnabled) :
    NormalForm p o' q := by
  have hfirst := ascending_env_setVariable p name value
  refine ⟨fun hn => ?_, fun _ => ?_, fun _ other => ?_, ?_, ?_⟩
  · rw [hset] at hn
    exact absurd hn (by simp)
  · cases ho : o.setsVariable with
    | false => exact (h.env_unset ho).symm ▸ hfirst
    | true => exact h.env_ascending ho
  · have hlast : last? (p.setVariable name value).env other =
        if name = other then some value else last? p.env other := by
      rw [Bindings.last?_of_nodup hfirst.nodup_names, get?_env_setVariable]
    have hget : get? q.env other =
        (o.valueOf? other).or (last? (p.setVariable name value).env other) := by
      cases ho : o.setsVariable with
      | false =>
        rw [h.env_unset ho, Outline.valueOf?_of_not_setsVariable ho, Option.none_or,
          Bindings.last?_of_nodup hfirst.nodup_names]
      | true => exact h.env_value ho other
    rw [hget, hlast, hvalue, Option.or_assoc]
    by_cases e : name = other
    · rw [if_pos e, if_pos e, Option.some_or]
    · rw [if_neg e, if_neg e, Option.none_or]
  · rw [h.initSql, hsources, initSql_setVariable]
  · rw [h.fsyncEnabled, hfsync, fsyncEnabled_setVariable]

/-- A script in front of a chain comes before the scripts of the chain. -/
theorem normalForm_of_addScript {s : Source τ} {o : Outline τ} (h : NormalForm (p.addScript s) o q) :
    NormalForm p { o with sources := s :: o.sources } q := by
  refine ⟨h.env_unset, h.env_ascending, h.env_value, ?_, h.fsyncEnabled⟩
  rw [h.initSql, length_initSql_addScript, List.mapIdx_cons]
  simp only [addScript, Nat.add_zero, List.append_assoc, List.singleton_append, Nat.add_assoc,
    Nat.add_comm 1]

theorem call_initSql {v : SourceValue τ} (h : p.call (.initSql v) = .ok q) :
    ∃ s, Source.ofValue v = .ok s ∧ p.addScript s = q := by
  cases hs : Source.ofValue v with
  | ok s => exact ⟨s, rfl, by simpa [call, hs, Except.map] using h⟩
  | error e => simp [call, hs, Except.map] at h

theorem call_of_setting {c : BuilderCall τ} {name : String} {value : τ}
    (h : c.setting? = some (name, value)) : p.call c = .ok (p.setVariable name value) := by
  cases c <;> simp_all [BuilderCall.setting?, call]

theorem normalForm_of_setting [DecidableEq τ] {c : BuilderCall τ} {cs : List (BuilderCall τ)}
    {name : String} {value : τ} (hset : c.setting? = some (name, value)) {p' : Postgres τ}
    (hc : p.call c = .ok p') (h : NormalForm p' (.ofCalls cs) q) : NormalForm p (.ofCalls (c :: cs)) q := by
  rw [call_of_setting hset, Except.ok.injEq] at hc
  subst hc
  obtain ⟨hs, hv, hsources, hfsync⟩ := Outline.ofCalls_cons_of_setting hset cs
  exact normalForm_of_setVariable h hs hv hsources hfsync

/-! ## Chains of calls -/

/-- Carries out calls in order, until one is refused. -/
def run (p : Postgres τ) : List (BuilderCall τ) → Except Failure (Postgres τ)
  | [] => .ok p
  | c :: rest =>
    match p.call c with
    | .ok q => run q rest
    | .error e => .error e

theorem run_cons {c : BuilderCall τ} {rest : List (BuilderCall τ)} (h : p.run (c :: rest) = .ok q) :
    ∃ p', p.call c = .ok p' ∧ p'.run rest = .ok q := by
  rw [run] at h
  cases hc : p.call c with
  | ok p' => exact ⟨p', rfl, by rwa [hc] at h⟩
  | error e => simp [hc] at h

/-- A chain is refused for a script that is no source, and for nothing else. -/
theorem exists_run_iff {cs : List (BuilderCall τ)} :
    (∃ q, p.run cs = .ok q) ↔ ∀ v, .initSql v ∈ cs → ∃ s, Source.ofValue v = .ok s := by
  induction cs generalizing p with
  | nil => exact ⟨fun _ v hv => (nomatch hv), fun _ => ⟨p, rfl⟩⟩
  | cons c cs ih =>
    constructor
    · intro h v hv
      obtain ⟨q, hq⟩ := h
      obtain ⟨p', hc, hrest⟩ := run_cons hq
      rcases List.mem_cons.mp hv with rfl | hv
      · obtain ⟨s, hs, -⟩ := call_initSql hc
        exact ⟨s, hs⟩
      · exact ih.mp ⟨q, hrest⟩ v hv
    · intro h
      have hcall : ∃ p', p.call c = .ok p' := by
        cases c with
        | initSql v =>
          obtain ⟨s, hs⟩ := h v List.mem_cons_self
          exact ⟨p.addScript s, by rw [call, hs]; rfl⟩
        | _ => exact ⟨_, rfl⟩
      obtain ⟨p', hp'⟩ := hcall
      obtain ⟨q, hq⟩ := ih.mpr fun v hv => h v (List.mem_cons_of_mem c hv)
      exact ⟨q, by rw [run, hp']; exact hq⟩

/-- A chain that fails does so as one of its scripts. -/
theorem exists_ofValue_of_run_eq_error {cs : List (BuilderCall τ)} {f : Failure}
    (h : p.run cs = .error f) : ∃ v, .initSql v ∈ cs ∧ Source.ofValue v = .error f := by
  induction cs generalizing p with
  | nil => cases h
  | cons c cs ih =>
    rw [run] at h
    cases hc : p.call c with
    | ok p' =>
      rw [hc] at h
      obtain ⟨v, hv, hf⟩ := ih h
      exact ⟨v, List.mem_cons_of_mem c hv, hf⟩
    | error e =>
      rw [hc] at h
      obtain rfl := Except.error.inj h
      cases c with
      | initSql v =>
        refine ⟨v, List.mem_cons_self, ?_⟩
        cases hv : Source.ofValue v with
        | ok s => simp [call, hv, Except.map] at hc
        | error e' => simpa [call, hv, Except.map] using hc
      | _ => cases hc

/-- Whatever the chain, its image is the normal form of its outline. -/
theorem normalForm_run [DecidableEq τ] {cs : List (BuilderCall τ)} (h : p.run cs = .ok q) :
    NormalForm p (.ofCalls cs) q := by
  induction cs generalizing p with
  | nil =>
    obtain rfl : p = q := by simpa [run] using h
    exact ⟨fun _ => rfl, by simp [Outline.ofCalls, Outline.setsVariable],
      by simp [Outline.ofCalls, Outline.setsVariable], by simp [Outline.ofCalls],
      by simp [Outline.ofCalls]⟩
  | cons c rest ih =>
    obtain ⟨p', hc, hrest⟩ := run_cons h
    -- `ih` is about the rest of the chain; what is left is to put the first call in front of it
    cases c with
    | initSql v =>
      obtain ⟨s, hs, rfl⟩ := call_initSql hc
      have ho : Outline.ofCalls (.initSql v :: rest) =
          { Outline.ofCalls rest with sources := s :: (Outline.ofCalls rest).sources } := by
        simp [Outline.ofCalls, hs, Except.toOption]
      rw [ho]
      exact normalForm_of_addScript (ih hrest)
    | fsyncEnabled =>
      obtain rfl : { p with fsyncEnabled := true } = p' := by simpa [call] using hc
      have ho : Outline.ofCalls (.fsyncEnabled :: rest) =
          { Outline.ofCalls rest with fsyncEnabled := true } := by
        simp [Outline.ofCalls]
      have hf := (ih hrest).fsyncEnabled
      rw [Bool.true_or] at hf
      rw [ho]
      exact ⟨(ih hrest).env_unset, (ih hrest).env_ascending, (ih hrest).env_value,
        (ih hrest).initSql, by rw [hf, Bool.or_true]⟩
    | hostAuth => exact normalForm_of_setting rfl hc (ih hrest)
    | dbName s => exact normalForm_of_setting rfl hc (ih hrest)
    | user s => exact normalForm_of_setting rfl hc (ih hrest)
    | password s => exact normalForm_of_setting rfl hc (ih hrest)

end Postgres

/-! ## Images -/

namespace Image

theorem call_image (k : ImageKind) (p : Postgres τ) (c : BuilderCall τ) :
    (k.image p).call c = (p.call c).map k.image := by
  cases k <;> rfl

/-- An image of either kind carries out a chain on the Postgres image inside. -/
theorem calls_image (k : ImageKind) (p : Postgres τ) (cs : List (BuilderCall τ)) :
    (k.image p).calls cs = (p.run cs).map k.image := by
  induction cs generalizing p with
  | nil => rfl
  | cons c rest ih =>
    rw [calls, call_image, Postgres.run]
    cases p.call c with
    | ok q => exact ih q
    | error e => rfl

theorem calls_image_eq_ok {k : ImageKind} {p : Postgres τ} {cs : List (BuilderCall τ)} {i : Image τ} :
    (k.image p).calls cs = .ok i ↔ ∃ q, p.run cs = .ok q ∧ k.image q = i := by
  rw [calls_image]
  cases p.run cs with
  | ok q => simp [Except.map]
  | error e => simp [Except.map]

/-- A chain is carried out if its scripts are sources, and ends in the normal form of its outline. So
two chains with one outline end in one image. -/
theorem calls_postgres_normalForm (p : Postgres) :
    (∀ cs, (∃ i, (postgres p).calls cs = .ok i) ↔
      ∀ v, .initSql v ∈ cs → ∃ s, Source.ofValue v = .ok s) ∧
    (∀ cs i, (postgres p).calls cs = .ok i →
      ∃ q, i = postgres q ∧ NormalForm p (.ofCalls cs) q) ∧
    (∀ cs ds i j, (postgres p).calls cs = .ok i → (postgres p).calls ds = .ok j →
      Outline.ofCalls cs = Outline.ofCalls ds → i = j) := by
  have hcalls : ∀ cs, (postgres p).calls cs = (p.run cs).map postgres :=
    calls_image .postgres p
  have hform : ∀ cs i, (postgres p).calls cs = .ok i →
      ∃ q, i = postgres q ∧ NormalForm p (.ofCalls cs) q := by
    intro cs i h
    rw [hcalls] at h
    cases hq : p.run cs with
    | error e => simp [hq, Except.map] at h
    | ok q =>
      rw [hq] at h
      exact ⟨q, (Except.ok.inj h).symm, Postgres.normalForm_run hq⟩
  refine ⟨fun cs => ?_, hform, fun cs ds i j hi hj ho => ?_⟩
  · rw [hcalls, ← Postgres.exists_run_iff]
    cases p.run cs with
    | error e => simp [Except.map]
    | ok q => simp [Except.map]
  · obtain ⟨q, rfl, hq⟩ := hform cs i hi
    obtain ⟨r, rfl, hr⟩ := hform ds j hj
    rw [hq.unique (ho ▸ hr)]

/-- From variables out of order and one of them twice: the form of one chain, and a second chain in
another order that comes to the same. -/
theorem calls_postgres_normalForm_of_repeated :
    let p : Postgres := ⟨[("B", "1"), ("A", "x"), ("B", "2")], [], false⟩
    let cs : List BuilderCall := [.user "u", .initSql (.text "SELECT 1"), .hostAuth, .user "v"]
    let ds : List BuilderCall := [.hostAuth, .user "v", .initSql (.bytes "SELECT 1".toUTF8)]
    (∃ q, (postgres p).calls cs = .ok (postgres q) ∧ NormalForm p (.ofCalls cs) q) ∧
    (postgres p).calls cs = (postgres p).calls ds := by
  intro p cs ds
  obtain ⟨q, hq, hform⟩ := (calls_postgres_normalForm p).2.1 cs _ rfl
  refine ⟨⟨q, by rw [← hq]; rfl, hform⟩, ?_⟩
  exact congrArg Except.ok ((calls_postgres_normalForm p).2.2 cs ds _ _ rfl rfl rfl)

end Image
end DbImage
