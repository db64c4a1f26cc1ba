import DbImage.Proofs.Config.Gathering
import DbImage.Proofs.EnvFile.Origins

/-!
# How far the environment reaches

A context of one's own takes the place of the environment.  The environment comes in all the same
where a value of the env file refers to it and the context does not have the variable:
`gather_isolated_iff`.
-/

namespace DbImage

open Files (Action Host)
open EnvFile (Assigned assignments given? origins)

/-- What may be the environment of a process, where names are taken from those that are admitted. -/
structure IsEnvironment (admitted : String → Prop) (e : Bindings) : Prop where
  admitted : ∀ name ∈ e.names, admitted name
  once : e.names.Nodup

namespace Variables

/-- The statements that are read from an env file: none if there is no such file, or no text in it. -/
def fileStatements (h : Host) (envFile? : Option String) : List EnvFile.Statement :=
  ((envFile?.bind h.find?).bind statementsOf?).getD []

/-- With a context given, what is gathered is settled before the environment is looked at, or it is
what the statements of the env file come to in the environment. -/
theorem gather_context_cases (context : Bindings) (envFile? : Option String) (h : Host) :
    (fileStatements h envFile? = [] ∧
      ∃ r, ∀ e, ((gather (some context) envFile?).on { h with environment := e }).1 = r) ∨
    ∀ e, ((gather (some context) envFile?).on { h with environment := e }).1 =
      .ok ((EnvFile.bindings e (fileStatements h envFile?)).overlay context) := by
  cases envFile? with
  | none => exact Or.inl ⟨rfl, .ok context, fun _ => rfl⟩
  | some path =>
    by_cases hpath : path = ""
    · subst hpath
      exact Or.inl ⟨rfl, .ok context, fun _ => rfl⟩
    · have houtcome : ∀ e, ((gather (some context) (some path)).on { h with environment := e }).1 =
          (outcomeOfFile { h with environment := e } path).map fun b => b.overlay context := fun e =>
        fst_on_gather_some (some context) hpath { h with environment := e }
      have hfind : ∀ e, ({ h with environment := e } : Host).find? path = h.find? path := fun _ => rfl
      simp only [houtcome, outcomeOfFile, hfind, fileStatements, Option.bind_some]
      cases h.find? path with
      | none => exact Or.inl ⟨rfl, _, fun _ => rfl⟩
      | some entry =>
        cases hss : statementsOf? entry with
        | none => exact Or.inl ⟨by simp [hss], .error .notUtf8, fun _ => by simp [hss, Except.map]⟩
        | some ss => exact Or.inr fun _ => by simp [hss, Except.map]

/-- Environments that agree on the origins of what the context does not have are all the same. -/
theorem fst_on_gather_congr {context : Bindings} {envFile? : Option String} {h : Host}
    {e₁ e₂ : Bindings}
    (horigins : ∀ x, x ∉ context.names →
      ∀ n ∈ origins (assignments (fileStatements h envFile?)) x, e₁.get? n = e₂.get? n) :
    ((gather (some context) envFile?).on { h with environment := e₁ }).1 =
      ((gather (some context) envFile?).on { h with environment := e₂ }).1 := by
  obtain ⟨-, r, hr⟩ | hgather := gather_context_cases context envFile? h
  · rw [hr, hr]
  · rw [hgather, hgather]
    have hnames := Bindings.names_overlay_congr
      (EnvFile.names_bindings_eq e₁ e₂ (fileStatements h envFile?)) context
    refine congrArg Except.ok (Bindings.eq_of_names_eq hnames ?_ fun x => ?_)
    · exact Bindings.nodup_names_overlay (EnvFile.nodup_names_bindings e₁ _) context
    · rw [Bindings.get?_overlay, Bindings.get?_overlay]
      by_cases hx : x ∈ context.names
      · obtain ⟨v, hv⟩ := Option.isSome_iff_exists.mp (Bindings.isSome_last?_iff.mpr hx)
        rw [hv, Option.some_or, Option.some_or]
      · rw [EnvFile.get?_bindings, EnvFile.get?_bindings, EnvFile.given?_congr (horigins x hx)]

/-- Whatever names an environment may have: with a context given, all environments lead to the same
variables, and to the same configuration of each text, exactly if no variable of the environment is an
origin of anything that the context does not have. -/
theorem gather_isolated_iff (admitted : String → Prop) (context : Bindings)
    (envFile? : Option String) (h : Host) :
    (∀ e₁ e₂, IsEnvironment admitted e₁ → IsEnvironment admitted e₂ →
      ((gather (some context) envFile?).on { h with environment := e₁ }).1 =
        ((gather (some context) envFile?).on { h with environment := e₂ }).1 ∧
      ∀ text,
        ((ImageConfig.parseText (some context) envFile? text).on { h with environment := e₁ }).1 =
          ((ImageConfig.parseText (some context) envFile? text).on { h with environment := e₂ }).1) ↔
    ∀ x, x ∉ context.names →
      ∀ n ∈ origins (assignments (fileStatements h envFile?)) x, ¬ admitted n := by
  constructor
  · intro hsame x hx n hn hadmitted
    -- two environments that have nothing but the origin, with texts of different lengths
    have hsingle : ∀ s, IsEnvironment admitted [(n, s)] := fun s =>
      ⟨fun name hname => List.mem_singleton.mp hname ▸ hadmitted, List.pairwise_singleton _ _⟩
    obtain ⟨hgather, -⟩ := hsame _ _ (hsingle "") (hsingle "x")
    obtain ⟨hempty, -⟩ | hok := gather_context_cases context envFile? h
    · rw [hempty] at hn
      cases hn
    · rw [hok, hok] at hgather
      have hx' := congrArg (Bindings.get? · x) (Except.ok.inj hgather)
      simp only [Bindings.get?_overlay, Bindings.last?_eq_none_of_not_mem hx, Option.none_or,
        EnvFile.get?_bindings] at hx'
      exact EnvFile.join_given?_ne_of_mem_origins hn hx'
  · intro hnone e₁ e₂ he₁ he₂
    have hgather : ((gather (some context) envFile?).on { h with environment := e₁ }).1 =
        ((gather (some context) envFile?).on { h with environment := e₂ }).1 := by
      refine fst_on_gather_congr fun x hx n hn => ?_
      rw [Bindings.get?_eq_none_of_not_mem fun hmem => hnone x hx n hn (he₁.admitted n hmem),
        Bindings.get?_eq_none_of_not_mem fun hmem => hnone x hx n hn (he₂.admitted n hmem)]
    refine ⟨hgather, fun text => ?_⟩
    rw [ImageConfig.fst_on_parseText, ImageConfig.fst_on_parseText, hgather]

/-- A value that refers to the environment, of a variable that the context has, and one that refers to
a variable of the file, which the environment has too. -/
theorem gather_isolated_iff_of_own_values :
    let text := "A=${SECRET}\nB=b\nC=${B}\n"
    let h : Host :=
      { files := ⟨[([".env"], .file text.toUTF8)]⟩
        workingDirectory := []
        environment := []
        log := [] }
    let e : Bindings := [("SECRET", "s"), ("B", "shell")]
    IsEnvironment (fun _ => True) [] ∧ IsEnvironment (fun _ => True) e ∧
      ((gather (some [("A", "1")]) (some ".env")).on { h with environment := [] }).1 =
        ((gather (some [("A", "1")]) (some ".env")).on { h with environment := e }).1 := by
  intro text h e
  have hempty : IsEnvironment (fun _ => True) [] := ⟨fun _ _ => trivial, List.nodup_nil⟩
  have he : IsEnvironment (fun _ => True) e := ⟨fun _ _ => trivial, by decide⟩
  have hstatements : assignments (fileStatements h (some ".env")) =
      [(['A'], some "${SECRET}".toList), (['B'], some ['b']),
        (['C'], some "${B}".toList)] := by
    decide +kernel
  refine ⟨hempty, he, ((gather_isolated_iff (fun _ => True) [("A", "1")] (some ".env") h).mpr ?_
    [] e hempty he).1⟩
  rw [hstatements]
  have hnone : ∀ name ∈ [['B'], ['C']], origins
      [(['A'], some "${SECRET}".toList), (['B'], some ['b']),
        (['C'], some "${B}".toList)] (String.ofList name) = [] := by
    decide +kernel
  intro x hx n hn
  obtain ⟨a, ha, rfl⟩ := EnvFile.assigned_of_mem_origins hn
  simp only [List.mem_cons, List.not_mem_nil, or_false] at ha
  rcases ha with rfl | rfl | rfl
  · exact absurd (by decide) hx
  · rw [hnone ['B'] (by decide)] at hn
    cases hn
  · rw [hnone ['C'] (by decide)] at hn
    cases hn

/-- A secret of the environment that comes in by way of the file, though a context is given. -/
theorem env_file_reveals_environment :
    let h (e : Bindings) : Host :=
      { files := ⟨[([".env"], .file "A=${SECRET}".toUTF8)]⟩
        workingDirectory := []
        environment := e
        log := [] }
    ((gather (some []) (some ".env")).on (h [])).1 = .ok [("A", "")] ∧
      ((gather (some []) (some ".env")).on (h [("SECRET", "s")])).1 = .ok [("A", "s")] := by
  intro h
  exact ⟨Action.eq_ok_of_toOption (by decide +kernel), Action.eq_ok_of_toOption (by decide +kernel)⟩

end Variables
end DbImage
