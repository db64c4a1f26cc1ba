import DbImage.Files.Host

/-!
# Actions that succeed

What an action that succeeds has done, one lemma for each way to make an action.  A sequence succeeds
when its parts do, each on the machine that the part before it leaves.
-/

namespace DbImage
namespace Files
namespace Action

variable {α β : Type} {h h' : Host}

@[simp]
theorem on_pure (a : α) (h : Host) : (pure a : Action α).on h = (.ok a, h) := rfl

@[simp]
theorem on_get (h : Host) : (get : Action Host).on h = (.ok h, h) := rfl

@[simp]
theorem on_throw (e : Failure) (h : Host) : (throw e : Action α).on h = (.error e, h) := rfl

@[simp]
theorem on_put (l : Location) (e : Entry) (h : Host) : (put l e).on h = (.ok (), h.put l e) := rfl

@[simp]
theorem on_record (e : Event) (h : Host) :
    (record e).on h = (.ok (), { h with log := h.log ++ [e] }) := rfl

@[simp]
theorem on_ofExcept (r : Except Failure α) (h : Host) :
    (MonadExcept.ofExcept r : Action α).on h = (r, h) := by
  cases r <;> rfl

theorem on_bind (x : Action α) (f : α → Action β) (h : Host) :
    (x >>= f).on h =
      match x.on h with
      | (.ok a, h') => (f a).on h'
      | (.error e, h') => (.error e, h') := by
  unfold on ExceptT.run StateT.run
  simp only [bind, ExceptT.bind, ExceptT.mk, StateT.bind, ExceptT.bindCont]
  rcases x h with ⟨_ | a, h'⟩ <;> rfl

/-- A failure that is caught leaves its changes behind. -/
theorem on_tryCatch (x : Action α) (f : Failure → Action α) (h : Host) :
    (tryCatch x f).on h =
      match x.on h with
      | (.ok a, h') => (.ok a, h')
      | (.error e, h') => (f e).on h' := by
  unfold on ExceptT.run StateT.run
  simp only [tryCatch, tryCatchThe, MonadExceptOf.tryCatch, ExceptT.tryCatch, ExceptT.mk, bind,
    StateT.bind]
  rcases x h with ⟨_ | a, h'⟩ <;> rfl

theorem on_bind_eq_ok {x : Action α} {f : α → Action β} {b : β} :
    (x >>= f).on h = (.ok b, h') ↔ ∃ a h₁, x.on h = (.ok a, h₁) ∧ (f a).on h₁ = (.ok b, h') := by
  rw [on_bind]
  rcases hx : x.on h with ⟨_ | a, h₁⟩
  · simp
  · constructor
    · exact fun hf => ⟨a, h₁, rfl, hf⟩
    · intro h
      obtain ⟨_, _, hx', hf⟩ := h
      cases hx'
      exact hf

/-- A sequence fails in its first part, or in the second on the machine that the first leaves. -/
theorem on_bind_eq_error {x : Action α} {f : α → Action β} {e : Failure} :
    (x >>= f).on h = (.error e, h') ↔
      x.on h = (.error e, h') ∨ ∃ a h₁, x.on h = (.ok a, h₁) ∧ (f a).on h₁ = (.error e, h') := by
  rw [on_bind]
  rcases hx : x.on h with ⟨e' | a, h₁⟩
  · simp
  · constructor
    · exact fun hf => Or.inr ⟨a, h₁, rfl, hf⟩
    · intro h
      rcases h with hx' | ⟨_, _, hx', hf⟩
      · cases hx'
      · cases hx'
        exact hf

theorem eq_ok_of_toOption {ε : Type} {r : Except ε α} {a : α} (hr : r.toOption = some a) :
    r = .ok a := by
  cases r with
  | ok b => exact congrArg Except.ok (Option.some.inj hr)
  | error e => cases hr

/-- A failure that can be compared with the expected one. -/
theorem eq_error_of_decide {r : Except Failure α} {e : Failure}
    (hr : (match r with
      | .error e' => decide (e' = e)
      | .ok _ => false) = true) : r = .error e := by
  cases r with
  | ok a => cases hr
  | error e' => exact congrArg Except.error (of_decide_eq_true hr)

theorem on_eq_of_fst {x : Action α} {r : Except Failure α} (hx : (x.on h).1 = r) :
    x.on h = (r, (x.on h).2) :=
  Prod.ext hx rfl

/-- An outcome that can be looked up comes with the machine that the action leaves. -/
theorem on_eq_of_toOption {x : Action α} {a : α} (hx : (x.on h).1.toOption = some a) :
    x.on h = (.ok a, (x.on h).2) :=
  on_eq_of_fst (eq_ok_of_toOption hx)

/-- An action that comes to no value fails, and leaves a machine all the same. -/
theorem exists_on_eq_error {x : Action α} (hx : (x.on h).1.toOption = none) :
    ∃ e, x.on h = (.error e, (x.on h).2) := by
  rcases hrun : x.on h with ⟨e | a, h₁⟩
  · exact ⟨e, rfl⟩
  · rw [hrun] at hx
    cases hx

/-- Such a failure comes with the machine that the action leaves. -/
theorem on_eq_error_of_decide {x : Action α} {e : Failure}
    (hx : (match (x.on h).1 with
      | .error e' => decide (e' = e)
      | .ok _ => false) = true) : x.on h = (.error e, (x.on h).2) :=
  on_eq_of_fst (eq_error_of_decide hx)

theorem on_ask_eq_ok {question : Host → Except Fault α} {a : α} :
    (ask question).on h = (.ok a, h') ↔ question h = .ok a ∧ h' = h := by
  rw [ask, on_bind, on_get]
  cases hq : question h with
  | ok b => simp [hq, eq_comm]
  | error fault => simp [hq]

theorem on_ask (question : Host → Except Fault α) (h : Host) :
    (ask question).on h = ((question h).mapError Failure.ofFault, h) := by
  rw [ask, on_bind, on_get]
  dsimp only
  cases question h <;> rfl

/-- A file that cannot be opened stays as it is, and one that is opened is emptied. -/
theorem on_openForWriting (path : String) (h : Host) :
    (openForWriting path).on h =
      match h.writable path with
      | .ok l => (.ok l, h.put l (.file .empty))
      | .error fault => (.error (.ofFault fault), h) := by
  rw [openForWriting, on_bind, on_ask]
  cases h.writable path <;> rfl

theorem on_openForWriting_eq_ok {path : String} {l : Location} :
    (openForWriting path).on h = (.ok l, h') ↔
      h.writable path = .ok l ∧ h' = h.put l (.file .empty) := by
  rw [openForWriting, on_bind_eq_ok]
  constructor
  · intro h
    obtain ⟨place, h₁, hask, hrest⟩ := h
    obtain ⟨hw, rfl⟩ := on_ask_eq_ok.mp hask
    rw [on_bind, on_put] at hrest
    obtain ⟨rfl, rfl⟩ : place = l ∧ h₁.put place (.file .empty) = h' := by simpa using hrest
    exact ⟨hw, rfl⟩
  · intro h
    obtain ⟨hw, rfl⟩ := h
    exact ⟨l, h, on_ask_eq_ok.mpr ⟨hw, rfl⟩, rfl⟩

theorem on_openForWriting_eq_error {path : String} {e : Failure} :
    (openForWriting path).on h = (.error e, h') ↔
      ∃ fault, h.writable path = .error fault ∧ e = .ofFault fault ∧ h' = h := by
  rw [on_openForWriting]
  cases h.writable path with
  | error fault => simp [eq_comm]
  | ok l => simp

end Action
end Files
end DbImage
