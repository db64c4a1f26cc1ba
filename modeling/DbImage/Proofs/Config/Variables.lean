import DbImage.Config.Reading
import DbImage.Proofs.Files.Action

/-!
# Gathering variables

Reading an env file leaves a trace in the log and nothing else, so what is read after it is read from
the machine as it was.
-/

namespace DbImage

open Files (Action Host)

namespace Files
namespace Action

variable {α β : Type}

/-- Whatever comes of the action, the machine differs in the log at most. -/
def OnlyLogs (x : Action α) : Prop :=
  ∀ h : Host, ∃ log, (x.on h).2 = { h with log := log }

theorem OnlyLogs.pure (a : α) : OnlyLogs (pure a) := fun h => ⟨h.log, rfl⟩

theorem OnlyLogs.throw (e : Failure) : OnlyLogs (throw e : Action α) := fun h => ⟨h.log, rfl⟩

theorem OnlyLogs.get : OnlyLogs (get : Action Host) := fun h => ⟨h.log, rfl⟩

theorem OnlyLogs.record (e : Event) : OnlyLogs (record e) := fun h => ⟨h.log ++ [e], rfl⟩

theorem OnlyLogs.ofExcept (r : Except Failure α) :
    OnlyLogs (MonadExcept.ofExcept r : Action α) := by
  intro h
  rw [on_ofExcept]
  exact ⟨h.log, rfl⟩

theorem OnlyLogs.bind {x : Action α} {f : α → Action β} (hx : OnlyLogs x)
    (hf : ∀ a, OnlyLogs (f a)) : OnlyLogs (x >>= f) := by
  intro h
  obtain ⟨log, hlog⟩ := hx h
  rw [on_bind]
  rcases hrun : x.on h with ⟨e | a, h₁⟩
  · rw [hrun] at hlog
    exact ⟨log, hlog⟩
  · rw [hrun] at hlog
    obtain ⟨log', hlog'⟩ := hf a h₁
    refine ⟨log', ?_⟩
    rw [hlog']
    cases hlog
    rfl

/-- A loop logs at most if each of its turns does. -/
theorem OnlyLogs.forIn {f : α → Unit → Action (ForInStep Unit)} (hf : ∀ a u, OnlyLogs (f a u))
    (as : List α) (u : Unit) : OnlyLogs (forIn as u f) := by
  induction as generalizing u with
  | nil => exact OnlyLogs.pure u
  | cons a as ih =>
    rw [List.forIn_cons]
    refine (hf a u).bind fun turn => ?_
    cases turn with
    | done u => exact OnlyLogs.pure u
    | yield u => exact ih u

end Action
end Files

namespace Variables

open Files.Action (OnlyLogs)

theorem onlyLogs_statements (path : String) : OnlyLogs (statements path) := by
  refine OnlyLogs.get.bind fun h => ?_
  split
  · exact .pure []
  · split
    · exact .throw _
    · exact (OnlyLogs.ofExcept _).bind fun _ => .pure _

theorem onlyLogs_ofFile (path : String) : OnlyLogs (ofFile path) := by
  refine OnlyLogs.get.bind fun h => ?_
  split
  · exact .throw _
  · refine (onlyLogs_statements path).bind fun ss => ?_
    refine (OnlyLogs.forIn (fun line _ => ?_) _ _).bind fun _ => ?_
    · exact (OnlyLogs.record _).bind fun _ => .pure _
    refine OnlyLogs.get.bind fun h => ?_
    exact (OnlyLogs.record _).bind fun _ => .pure _

theorem onlyLogs_gather (context? : Option Bindings) (envFile? : Option String) :
    OnlyLogs (gather context? envFile?) := by
  refine OnlyLogs.get.bind fun h => ?_
  split
  · exact .pure _
  · rename_i path
    split
    · exact .pure _
    · exact (onlyLogs_ofFile path).bind fun _ => .pure _

end Variables
end DbImage
