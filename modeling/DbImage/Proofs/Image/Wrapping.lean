import DbImage.Proofs.Image.BuilderChain

/-!
# A PostGIS image and the image inside

A PostGIS image hands every builder call to the Postgres image inside and answers with its contract
under a name of its own.  So along any chain of calls the two stay side by side: both carry out a
call or both refuse it for the same reason, and what they answer differs in the identity alone.
-/

namespace DbImage

/-- Two contracts that agree on everything but what the image is called. -/
structure SameBesidesIdentity (c d : Contract) : Prop where
  ready : c.ready = d.ready
  readinessConditions : c.readinessConditions = d.readinessConditions
  env : c.env = d.env
  environmentVariables : c.environmentVariables = d.environmentVariables
  copies : c.copies = d.copies
  filesToStage : c.filesToStage = d.filesToStage
  command : c.command = d.command
  startupCommand : c.startupCommand = d.startupCommand
  /-- On any machine, reading the staged items finds the same and leaves the same behind. -/
  read : ∀ h : Files.Host,
    c.copies.map (fun item => item.source.read.on h) =
      d.copies.map (fun item => item.source.read.on h)
  /-- The description has the same fields in the same order, name and tag apart. -/
  fields : c.describe.fields.filter (fun f => f.1 ≠ "name" ∧ f.1 ≠ "tag") =
    d.describe.fields.filter (fun f => f.1 ≠ "name" ∧ f.1 ≠ "tag")

theorem SameBesidesIdentity.of_named (c : Contract) (name tag : String) :
    SameBesidesIdentity { c with name := name, tag := tag } c := by
  refine ⟨rfl, rfl, rfl, rfl, rfl, rfl, rfl, rfl, fun _ => rfl, ?_⟩
  simp [Descriptor.fields, Contract.describe]

/-- An image of either kind agrees so with the Postgres image inside. -/
theorem SameBesidesIdentity.of_image (k : ImageKind) (p : Postgres) :
    SameBesidesIdentity (k.image p).contract p.contract := by
  cases k
  · exact .of_named p.contract Postgis.name Postgis.tag
  · exact .of_named p.contract Postgres.name Postgres.tag

namespace Image

/-- The call at position `n` is the first that is refused, and `e` is why. -/
def RefusedAt (i : Image) (cs : List BuilderCall) (n : Nat) (e : Failure) : Prop :=
  ∃ c j, cs[n]? = some c ∧ i.calls (cs.take n) = .ok j ∧ j.call c = .error e

/-- A chain fails at the one call that is refused. -/
theorem calls_eq_error_iff {i : Image} {cs : List BuilderCall} {e : Failure} :
    i.calls cs = .error e ↔ ∃ n, RefusedAt i cs n e := by
  induction cs generalizing i with
  | nil => simp [RefusedAt]
  | cons c cs ih =>
    rw [calls]
    constructor
    · intro h
      cases hc : i.call c with
      | error f =>
        rw [hc] at h
        obtain rfl : f = e := Except.error.inj h
        exact ⟨0, c, i, rfl, rfl, hc⟩
      | ok j =>
        rw [hc] at h
        obtain ⟨n, d, l, hd, hl, hrefused⟩ := ih.mp h
        refine ⟨n + 1, d, l, hd, ?_, hrefused⟩
        rw [List.take_succ_cons, calls, hc]
        exact hl
    · rintro ⟨n, d, l, hd, hl, hrefused⟩
      cases n with
      | zero =>
        obtain rfl : c = d := Option.some.inj hd
        obtain rfl : i = l := Except.ok.inj hl
        rw [hrefused]
      | succ n =>
        rw [List.take_succ_cons, calls] at hl
        cases hc : i.call c with
        | error f =>
          rw [hc] at hl
          exact absurd hl (by simp)
        | ok j =>
          rw [hc] at hl
          exact ih.mpr ⟨n, d, l, hd, hl, hrefused⟩

theorem call_image_eq_error {k : ImageKind} {p : Postgres} {c : BuilderCall} {e : Failure} :
    (k.image p).call c = .error e ↔ p.call c = .error e := by
  rw [call_image]
  cases p.call c <;> simp [Except.map]

/-- Which call of a chain is refused, and why, is a matter of the Postgres image alone. -/
theorem refusedAt_image {k : ImageKind} {p : Postgres} {cs : List BuilderCall} {n : Nat}
    {e : Failure} :
    RefusedAt (k.image p) cs n e ↔
      ∃ c q, cs[n]? = some c ∧ p.run (cs.take n) = .ok q ∧ q.call c = .error e := by
  constructor
  · rintro ⟨c, j, hc, hj, hrefused⟩
    obtain ⟨q, hq, rfl⟩ := calls_image_eq_ok.mp hj
    exact ⟨c, q, hc, hq, call_image_eq_error.mp hrefused⟩
  · rintro ⟨c, q, hc, hq, hrefused⟩
    exact ⟨c, k.image q, hc, calls_image_eq_ok.mpr ⟨q, hq, rfl⟩,
      call_image_eq_error.mpr hrefused⟩

/-- Along every chain of calls, with scripts of any kind, a PostGIS image does what the Postgres image
inside does: it fails at the same call for the same reason or succeeds, and then holds the image that
the chain makes of the one inside, answers as that image does and keeps a name of its own. -/
theorem postgis_simulates_postgres (p : Postgres) (cs : List BuilderCall) :
    ((∃ i, (postgis p).calls cs = .ok i) ↔ ∃ j, (postgres p).calls cs = .ok j) ∧
    (∀ e, (postgis p).calls cs = .error e ↔ ∃ n, RefusedAt (postgis p) cs n e) ∧
    (∀ n e, RefusedAt (postgis p) cs n e ↔ RefusedAt (postgres p) cs n e) ∧
    ∀ i j, (postgis p).calls cs = .ok i → (postgres p).calls cs = .ok j →
      i.className = "Postgis" ∧ i.inner = .ok j ∧ SameBesidesIdentity i.contract j.contract ∧
      i.contract.identity = ("postgis/postgis", "17-3.5") ∧
      i.contract.imageRef = "postgis/postgis:17-3.5" ∧
      i.contract.describe.imageRef = "postgis/postgis:17-3.5" := by
  have hgis : ∀ {i}, (postgis p).calls cs = .ok i ↔ ∃ q, p.run cs = .ok q ∧ postgis q = i :=
    calls_image_eq_ok (k := .postgis)
  have hgres : ∀ {j}, (postgres p).calls cs = .ok j ↔ ∃ q, p.run cs = .ok q ∧ postgres q = j :=
    calls_image_eq_ok (k := .postgres)
  refine ⟨?_, fun e => calls_eq_error_iff, fun n e => ?_, fun i j hi hj => ?_⟩
  · simp only [hgis, hgres]
    exact ⟨fun ⟨_, q, hq, _⟩ => ⟨_, q, hq, rfl⟩, fun ⟨_, q, hq, _⟩ => ⟨_, q, hq, rfl⟩⟩
  · exact (refusedAt_image (k := .postgis)).trans (refusedAt_image (k := .postgres)).symm
  · obtain ⟨q, hq, rfl⟩ := hgis.mp hi
    obtain ⟨r, hr, rfl⟩ := hgres.mp hj
    obtain rfl : q = r := Except.ok.inj (hq.symm.trans hr)
    exact ⟨rfl, rfl, .of_image .postgis q, rfl, rfl, rfl⟩

/-- From variables out of order: a chain that both carry out, and one that both refuse at the second
call. -/
theorem postgis_simulates_postgres_of_refusal :
    let p : Postgres := ⟨[("B", "1"), ("A", "x")], [], true⟩
    let cs : List BuilderCall := [.user "u", .initSql (.path (.ofText "a.sql")), .hostAuth]
    let ds : List BuilderCall := [.dbName "geo", .initSql (.other "int"), .fsyncEnabled]
    (∃ i j, (postgis p).calls cs = .ok i ∧ i.inner = .ok j ∧
      SameBesidesIdentity i.contract j.contract) ∧
    RefusedAt (postgis p) ds 1 (.unsupportedSource "int") := by
  intro p cs ds
  have hrefused : RefusedAt (postgres p) ds 1 (.unsupportedSource "int") :=
    ⟨_, _, rfl, rfl, rfl⟩
  refine ⟨?_, ((postgis_simulates_postgres p ds).2.2.1 _ _).mpr hrefused⟩
  obtain ⟨-, hinner, hsame, -⟩ := (postgis_simulates_postgres p cs).2.2.2 _ _ rfl rfl
  exact ⟨_, _, rfl, hinner, hsame⟩

end Image
end DbImage
