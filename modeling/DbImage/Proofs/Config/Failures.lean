import DbImage.Config.Reading
import DbImage.Proofs.Config.Chains
import DbImage.Proofs.Files.Action
import DbImage.Proofs.Yaml.Construction
import DbImage.Proofs.Yaml.Nodes
import DbImage.Proofs.Yaml.Scan

/-!
# Failures of configurations

A text comes to an image or to a failure.  Interpolation and the check of the value fail as
configurations do, and so do all faults of the YAML text but those that its readers do not expect: an
escape beyond 31 bits, and a scalar under a tag that asks something else of it.  Building fails as a
configuration does for an unknown name, and not for an inline script that has no bytes.  `Unreported`
says when one of these happens.
-/

namespace DbImage

open Yaml (Construction FarEscape Graph TokenStream)

namespace Failure

variable {ε ε' α β : Type} {x : Except ε α}

/-- A computation in steps fails in its first step or after it. -/
theorem bind_eq_error_iff {k : α → Except ε β} {e : ε} :
    (x >>= k) = .error e ↔ x = .error e ∨ ∃ a, x = .ok a ∧ k a = .error e := by
  cases x <;> simp [bind, Except.bind]

theorem mapError_eq_error_iff {g : ε → ε'} {e : ε'} :
    x.mapError g = .error e ↔ ∃ e₀, x = .error e₀ ∧ g e₀ = e := by
  cases x with
  | error e₀ =>
    refine ⟨fun h => ⟨e₀, rfl, Except.error.inj h⟩, ?_⟩
    intro h
    obtain ⟨e₁, h, rfl⟩ := h
    cases h
    rfl
  | ok a =>
    refine ⟨fun h => (nomatch h), ?_⟩
    intro h
    obtain ⟨e₁, h, -⟩ := h
    cases h

theorem mapError_eq_ok_iff {g : ε → ε'} {a : α} : x.mapError g = .ok a ↔ x = .ok a := by
  cases x with
  | error e₀ => exact ⟨fun h => (nomatch h), fun h => (nomatch h)⟩
  | ok b => exact ⟨fun h => congrArg _ (Except.ok.inj h), fun h => congrArg _ (Except.ok.inj h)⟩

end Failure

/-! ## YAML texts -/

namespace Yaml

variable {f : Fault}

theorem read_of_all_isAllowed {text : List Char} (h : text.all isAllowed = true) (depth : Nat) :
    read depth text = (Graph.ofTokens (.ofText text) >>= fun (g, root?) =>
      match root? with
      | some root => Construction.build g root depth
      | none => pure .null) := by
  rw [read, h]
  rfl

/-- A fault that is not reported comes up between the tokens or at a node that is met. -/
theorem read_eq_error_iff {depth : Nat} {text : List Char} (hf : f.isReported = false) :
    read depth text = .error f ↔ text.all isAllowed = true ∧
      ((TokenStream.ofText text).fault? = some f ∧
          Graph.WantsMore (TokenStream.ofText text).tokens ∨
        ∃ g root, Graph.ofTokens (.ofText text) = .ok (g, some root) ∧
          ∃ c n, Construction.Meets g root c n ∧ c.graph.Misread n f) := by
  have hne := Fault.ne_malformed hf
  by_cases hall : text.all isAllowed = true
  · rw [read_of_all_isAllowed hall, Failure.bind_eq_error_iff, and_iff_right hall,
      Graph.ofTokens_eq_error_iff hne]
    refine or_congr_right ⟨?_, ?_⟩
    · intro h
      obtain ⟨⟨g, root?⟩, htokens, hbuild⟩ := h
      cases root? with
      | none => cases hbuild
      | some root => exact ⟨g, root, htokens, (Construction.build_eq_error_iff hf).mp hbuild⟩
    · intro h
      obtain ⟨g, root, htokens, hmeets⟩ := h
      exact ⟨(g, some root), htokens, (Construction.build_eq_error_iff hf).mpr hmeets⟩
  · have hread : read depth text = .error .malformed := by
      rw [read, if_pos (by simpa using hall)]
      rfl
    rw [hread]
    constructor
    · exact fun h => absurd (Except.error.inj h).symm hne
    · exact fun h => absurd h.1 hall

/-- The one fault of the scanner that is not reported is an escape. -/
theorem farEscape_of_fault {text : List Char} (hf : f.isReported = false)
    (h : (TokenStream.ofText text).fault? = some f) : f = .tooLarge ∧ FarEscape text := by
  rcases fault_ofText h with rfl | rfl | hfar
  · cases hf
  · cases hf
  · exact hfar

end Yaml

/-! ## Causes -/

namespace Failure

/-- A configuration is what failed. -/
def isConfig : Failure → Bool
  | .config _ => true
  | _ => false

theorem isConfig_ofYaml (fault : Yaml.Fault) : (ofYaml fault).isConfig = fault.isReported := by
  cases fault <;> rfl

end Failure

namespace ImageConfig

variable {f : Failure} {text : String} {bindings : Bindings}

theorem isConfig_ofValue {d : Datum LooseText} (h : ofValue d = .error f) : f.isConfig = true := by
  unfold ofValue at h
  split at h
  · cases h
  · obtain ⟨issues, -, rfl⟩ := Failure.mapError_eq_error_iff.mp h
    rfl
  · cases h
    rfl

/-! ## Texts of configurations -/

/-- The ways in which a text fails to be read, other than as a configuration. -/
inductive Unread (text : String) (bindings : Bindings) : Failure → Prop where
  /-- The scanner stops at an escape that is no character, and the grammar comes to it. -/
  | escape {expanded : String} :
    Interpolation.interpolate text bindings = .ok expanded →
    expanded.toList.all Yaml.isAllowed = true →
    (TokenStream.ofText expanded.toList).fault? = some .tooLarge →
    Graph.WantsMore (TokenStream.ofText expanded.toList).tokens →
    Unread text bindings .tooLarge
  /-- A node is met that is not what its tag says. -/
  | node {expanded : String} {g : Graph} {root n : Yaml.NodeId} {c : Construction}
      {fault : Yaml.Fault} :
    Interpolation.interpolate text bindings = .ok expanded →
    expanded.toList.all Yaml.isAllowed = true →
    Graph.ofTokens (.ofText expanded.toList) = .ok (g, some root) →
    Construction.Meets g root c n → c.graph.Misread n fault →
    Unread text bindings (.ofYaml fault)

theorem ofText_eq_error_iff (hf : f.isConfig = false) :
    ofText text bindings = .error f ↔ Unread text bindings f := by
  rw [ofText, Failure.bind_eq_error_iff]
  constructor
  · intro h
    rcases h with hexpand | ⟨expanded, hexpand, hvalue⟩
    · obtain ⟨name, -, rfl⟩ := Failure.mapError_eq_error_iff.mp hexpand
      cases hf
    rw [Failure.mapError_eq_ok_iff] at hexpand
    rcases Failure.bind_eq_error_iff.mp hvalue with hread | ⟨d, -, hd⟩
    · obtain ⟨fault, hfault, rfl⟩ := Failure.mapError_eq_error_iff.mp hread
      rw [Failure.isConfig_ofYaml] at hf
      obtain ⟨hall, ⟨hstop, hwants⟩ | ⟨g, root, htokens, c, n, hmeets, hmisread⟩⟩ :=
        (Yaml.read_eq_error_iff hf).mp hfault
      · obtain ⟨rfl, -⟩ := Yaml.farEscape_of_fault hf hstop
        exact .escape hexpand hall hstop hwants
      · exact .node hexpand hall htokens hmeets hmisread
    · rw [isConfig_ofValue hd] at hf
      cases hf
  · intro h
    have hread : ∃ expanded fault, Interpolation.interpolate text bindings = .ok expanded ∧
        Yaml.read depth expanded.toList = .error fault ∧ Failure.ofYaml fault = f := by
      cases h with
      | escape hexpand hall hstop hwants =>
        refine ⟨_, .tooLarge, hexpand, (Yaml.read_eq_error_iff rfl).mpr ?_, rfl⟩
        exact ⟨hall, Or.inl ⟨hstop, hwants⟩⟩
      | node hexpand hall htokens hmeets hmisread =>
        refine ⟨_, _, hexpand, (Yaml.read_eq_error_iff hmisread.not_isReported).mpr ?_, rfl⟩
        exact ⟨hall, Or.inr ⟨_, _, htokens, _, _, hmeets, hmisread⟩⟩
    obtain ⟨expanded, fault, hexpand, hfault, rfl⟩ := hread
    refine Or.inr ⟨expanded, Failure.mapError_eq_ok_iff.mpr hexpand, ?_⟩
    refine Failure.bind_eq_error_iff.mpr (Or.inl ?_)
    exact Failure.mapError_eq_error_iff.mpr ⟨fault, hfault, rfl⟩

end ImageConfig
end DbImage
