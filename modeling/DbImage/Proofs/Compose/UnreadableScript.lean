import DbImage.Proofs.Compose.FailedConversion
import DbImage.Proofs.Compose.Stops

/-!
# A script that cannot be read

Where no script is read from a place that scripts are staged at, what can be opened and read does not
change while they are staged.  So the machine at the start decides whether a conversion stops for want
of a script's content, and at which script: `convert_stops_iff`.  The scripts before it are staged
then, its own file is empty, and everything else is as it was.
-/

namespace DbImage

open Files (Action Host IsName Location Reference Refusal SameDirectories WritesFiles join)

namespace Files

namespace Tree

end Tree

end Files

namespace Source

variable {s : Source} {h h' : Host} {P : Location → Prop} {r : Reference}

/-- A reference that cannot be read, for another reason than U+0000 in it. -/
def Unreadable (r : Reference) (h : Host) : Prop :=
  Host.holdsNul r.text = false ∧ ∀ bytes, h.read r.text ≠ .ok bytes

end Source

namespace Compose

open Postgres (scriptName scriptTarget)

/-! ## Items that stay apart -/

section

variable {directory : String} {item : StagedItem} {items before after : List StagedItem}
  {h h₁ h' : Host} {place : Location} {content : ByteArray} {r : Reference}

end

/-! ## The conversion up to the scripts -/

section

variable {c : Contract} {service out : String} {mounts : List Mount} {e : Failure} {h h' : Host}
  {r : Reference} {refusal : Refusal}

end

/-! ## The scripts -/

/-- The `n`-th script is a reference that cannot be read, and all before it can be read. -/
structure FirstUnreadable (scripts : List Source) (h : Host) (n : Nat) (r : Reference) : Prop where
  script : scripts[n]? = some (.reference r)
  unreadable : Source.Unreadable r h
  earlier : ∀ s ∈ scripts.take n, ∃ bytes, s.content h = .ok bytes

namespace FirstUnreadable

variable {scripts : List Source} {h : Host} {n : Nat} {r : Reference} {s : Source}

theorem cons {bytes : ByteArray} (hs : s.content h = .ok bytes)
    (hfirst : FirstUnreadable scripts h n r) : FirstUnreadable (s :: scripts) h (n + 1) r := by
  refine ⟨by rw [List.getElem?_cons_succ, hfirst.script], hfirst.unreadable, fun s' hs' => ?_⟩
  rw [List.take_succ_cons, List.mem_cons] at hs'
  rcases hs' with rfl | hs'
  · exact ⟨bytes, hs⟩
  · exact hfirst.earlier s' hs'

end FirstUnreadable

section

variable {c : Contract} {out : String} {scripts : List Source} {h p h' h₁ : Host} {n : Nat}
  {r : Reference} {l place : Location} {e : Failure}

section

variable (hcopies : c.copies = scripts.mapIdx fun n s => ⟨scriptTarget n, s⟩)

include hcopies

end

end

/-! ## The conversion of an image -/

end Compose
end DbImage
