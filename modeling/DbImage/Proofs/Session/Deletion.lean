import DbImage.Session

/-!
# Steps that may be deleted

A step asks its session for the registers that it names as sources, and stores into its target if it
stores at all.  So two sessions that agree outside a set of registers answer alike to every step that
names none of them, and agree there afterwards.  A step that stores nothing, or whose target no other
step names, is therefore deleted from a session without a trace in what the others answer:
`answers_of_kept`.
-/

namespace DbImage
namespace Session

/-- The registers that a question is about. -/
def Question.registers : Question → List String
  | .look register => [register]
  | .equal a b => [a, b]
  | .distinct registers => registers

/-- The registers that an image is made from. -/
def Making.registers : Making → List String
  | .new _ => []
  | .call register _ => [register]
  | .inner register => [register]

namespace Request

/-- The register that a step is to store into. -/
def target? : Request → Option String
  | .make register _ => some register
  | .rebind _ _ _ => none
  | .ask _ => none

/-- The registers whose images a step asks for. -/
def sources : Request → List String
  | .make _ how => how.registers
  | .rebind register _ _ => [register]
  | .ask question => question.registers

def names (r : Request) : List String := r.target?.toList ++ r.sources

end Request

/-- The step has no target, or it fails. -/
def StoresNothing (s : Session) (r : Request) : Prop :=
  r.target? = none ∨ ∃ e, (s.step r).1 = .error e

/-- The two sessions hold the same images, but for registers that are `dead`. -/
def AgreeOutside (dead : String → Prop) (s t : Session) : Prop :=
  ∀ register, ¬ dead register → s.get register = t.get register

section

variable {s t : Session} {r : Request} {dead : String → Prop}

/-! ## What one step depends on -/

theorem getAll_congr {registers : List String}
    (h : ∀ register ∈ registers, s.get register = t.get register) :
    s.getAll registers = t.getAll registers := by
  induction registers with
  | nil => rfl
  | cons register rest ih =>
    rw [List.forall_mem_cons] at h
    rw [getAll, getAll, h.1, ih h.2]

theorem answer_congr {question : Question}
    (h : ∀ register ∈ question.registers, s.get register = t.get register) :
    s.answer question = t.answer question := by
  cases question with
  | look register => rw [answer, answer, h register (List.mem_singleton_self register)]
  | equal a b =>
    have ha : s.get a = t.get a := h a List.mem_cons_self
    have hb : s.get b = t.get b := h b (List.mem_cons_of_mem _ List.mem_cons_self)
    rw [answer, answer, ha, hb]
  | distinct registers =>
    have hall : s.getAll registers = t.getAll registers := getAll_congr h
    rw [answer, answer, hall]

theorem made_congr {how : Making}
    (h : ∀ register ∈ how.registers, s.get register = t.get register) : s.made how = t.made how := by
  cases how with
  | new recipe => rfl
  | call register c => rw [made, made, h register (List.mem_singleton_self register)]
  | inner register => rw [made, made, h register (List.mem_singleton_self register)]

/-- A step changes no register but its target. -/
theorem get_step_of_ne {other : String} (h : r.target? ≠ some other) :
    (s.step r).2.get other = s.get other := by
  cases r with
  | make register how =>
    have hne : other ≠ register := fun e => h (congrArg some e.symm)
    rw [step]
    split
    · exact (get_store s register other _).trans (if_neg hne)
    · rfl
  | rebind register name value =>
    rw [step]
    split <;> rfl
  | ask question => rfl

theorem get_step_of_storesNothing (h : StoresNothing s r) (register : String) :
    (s.step r).2.get register = s.get register := by
  rcases h with hnone | ⟨e, he⟩
  · exact get_step_of_ne (hnone ▸ nofun)
  · rw [step_snd_of_error he]

/-- Sessions that agree on what a step asks for give the same answer, and a register in which they
agree is one in which they agree afterwards. -/
theorem step_congr (h : ∀ register ∈ r.sources, s.get register = t.get register) :
    (s.step r).1 = (t.step r).1 ∧
      ∀ register, s.get register = t.get register →
        (s.step r).2.get register = (t.step r).2.get register := by
  cases r with
  | make register how =>
    rw [step, step, made_congr h]
    cases t.made how with
    | ok i => exact ⟨rfl, fun other hother => by simp only [get_store, hother]⟩
    | error e => exact ⟨rfl, fun _ hother => hother⟩
  | rebind register name value =>
    have hget : s.get register = t.get register := h register (List.mem_singleton_self register)
    rw [step, step, hget]
    cases hi : t.get register with
    | ok i =>
      refine ⟨?_, fun _ hother => hother⟩
      simp only [answer, get_rebind, hget, hi]
    | error e => exact ⟨rfl, fun _ hother => hother⟩
  | ask question => exact ⟨answer_congr h, fun _ hother => hother⟩

/-! ## Two sessions step by step -/

theorem AgreeOutside.step (h : AgreeOutside dead s t)
    (halive : ∀ register ∈ r.names, ¬ dead register) :
    (s.step r).1 = (t.step r).1 ∧ AgreeOutside dead (s.step r).2 (t.step r).2 := by
  have hsources : ∀ register ∈ r.sources, s.get register = t.get register := fun register hmem =>
    h register (halive register (List.mem_append_right _ hmem))
  obtain ⟨hanswer, hget⟩ := step_congr hsources
  exact ⟨hanswer, fun register hdead => hget register (h register hdead)⟩

/-- A step that stores nothing, or stores into a dead register, is one that the other session need not
take. -/
theorem AgreeOutside.step_left (h : AgreeOutside dead s t)
    (hdeleted : StoresNothing s r ∨ ∃ register, r.target? = some register ∧ dead register) :
    AgreeOutside dead (s.step r).2 t := by
  intro other hother
  rw [← h other hother]
  rcases hdeleted with hnothing | ⟨register, htarget, hdead⟩
  · exact get_step_of_storesNothing hnothing other
  · exact get_step_of_ne fun e => hother (Option.some.inj (htarget.symm.trans e) ▸ hdead)

end

/-! ## Deleting steps from a session -/

/-- What is kept of things that are marked to be kept or not. -/
def kept {α : Type} (marked : List (α × Bool)) : List α :=
  (marked.filter (·.2)).map (·.1)

section

variable {α : Type} (a : α) (marked : List (α × Bool))

@[simp]
theorem kept_cons_true : kept ((a, true) :: marked) = a :: kept marked := rfl

@[simp]
theorem kept_cons_false : kept ((a, false) :: marked) = kept marked := rfl

end

section

variable {s t : Session} {dead : String → Prop}

@[simp]
theorem run_cons_fst (s : Session) (r : Request) (rest : List Request) :
    (s.run (r :: rest)).1 = (s.step r).1 :: ((s.step r).2.run rest).1 := rfl

/-- Of two sessions that agree outside the dead registers one takes all steps, and the other those
that are kept. -/
theorem AgreeOutside.run {steps : List (Request × Bool)} (h : AgreeOutside dead s t)
    (hkept : ∀ r, (r, true) ∈ steps → ∀ register ∈ r.names, ¬ dead register)
    (hdeleted : ∀ n (hn : n < steps.length), steps[n].2 = false →
      StoresNothing (s.run ((steps.take n).map (·.1))).2 steps[n].1 ∨
        ∃ register, steps[n].1.target? = some register ∧ dead register) :
    kept ((s.run (steps.map (·.1))).1.zip (steps.map (·.2))) = (t.run (kept steps)).1 := by
  -- the two sessions are where the whole list and the kept part of it have led so far
  induction steps generalizing s t with
  | nil => rfl
  | cons marked rest ih =>
    obtain ⟨r, mark⟩ := marked
    have hkept' : ∀ r, (r, true) ∈ rest → ∀ register ∈ r.names, ¬ dead register :=
      fun r hr => hkept r (List.mem_cons_of_mem _ hr)
    have hdeleted' : ∀ n (hn : n < rest.length), rest[n].2 = false →
        StoresNothing ((s.step r).2.run ((rest.take n).map (·.1))).2 rest[n].1 ∨
          ∃ register, rest[n].1.target? = some register ∧ dead register :=
      fun n hn => hdeleted (n + 1) (Nat.succ_lt_succ hn)
    cases mark with
    | true =>
      obtain ⟨hanswer, hagree⟩ := h.step (hkept r List.mem_cons_self)
      simp [hanswer, ih hagree hkept' hdeleted']
    | false =>
      have hagree : AgreeOutside dead (s.step r).2 t :=
        h.step_left (hdeleted 0 (Nat.succ_pos _) rfl)
      simp [ih hagree hkept' hdeleted']

end

/-- In any session, steps may be deleted that store nothing, or that store into a register which no
step that is kept names: the answers to those that are kept do not change. A step that makes an image
changes no answer about other registers; binding a name anew in the variables that an image gave away
changes no image; a step that fails leaves the session as it was. -/
theorem answers_of_kept (s : Session) (steps : List (Request × Bool))
    (hdeleted : ∀ n (hn : n < steps.length), steps[n].2 = false →
      StoresNothing (s.run ((steps.take n).map (·.1))).2 steps[n].1 ∨
        ∃ register, steps[n].1.target? = some register ∧
          ∀ r, (r, true) ∈ steps → register ∉ r.names) :
    kept ((s.run (steps.map (·.1))).1.zip (steps.map (·.2))) = (s.run (kept steps)).1 ∧
    (∀ register how question, register ∉ question.registers →
      (s.step (.make register how)).2.answer question = s.answer question) ∧
    (∀ register name value i, s.get register = .ok i →
      let (a, s') := s.step (.rebind register name value)
      a = .ok (.image i) ∧ (∀ question, s'.answer question = s.answer question) ∧
        ∃ vars rest, s'.givenAway = vars :: rest ∧ vars.get? name = some value) ∧
    ∀ r e, (s.step r).1 = .error e → (s.step r).2 = s := by
  refine ⟨AgreeOutside.run (fun _ _ => rfl) (fun r hr register hmem hdead => hdead r hr hmem) hdeleted,
    fun register how question hother => answer_congr fun other hmem => ?_, ?_,
    fun r e => step_snd_of_error⟩
  · apply get_step_of_ne
    rintro ⟨⟩
    exact hother hmem
  · intro register name value i hi
    simp only [step, hi]
    refine ⟨?_, fun question => answer_congr fun other _ => get_rebind s i name value other,
      _, _, rfl, ?_⟩
    · rw [answer, get_rebind, hi]
      rfl
    · rw [Bindings.get?_put, if_pos rfl]

/-- A branch, a binding in a mapping given away, and a step that fails are deleted before the register
that they have to do with is stored into anew. -/
theorem answers_of_kept_branches :
    let steps : List (Request × Bool) :=
      [(.make "a" (.new (.database "postgis" none false [])), true),
        (.make "b" (.call "a" (.dbName "geo")), false),
        (.rebind "a" "POSTGRES_DB" "changed", false),
        (.make "a" (.inner "missing"), false),
        (.make "a" (.call "a" (.user "alice")), true),
        (.ask (.equal "a" "a"), true),
        (.ask (.look "c"), true)]
    (∀ n (hn : n < steps.length), steps[n].2 = false →
      StoresNothing (empty.run ((steps.take n).map (·.1))).2 steps[n].1 ∨
        ∃ register, steps[n].1.target? = some register ∧
          ∀ r, (r, true) ∈ steps → register ∉ r.names) ∧
    kept ((empty.run (steps.map (·.1))).1.zip (steps.map (·.2))) = (empty.run (kept steps)).1 := by
  intro steps
  have hunnamed : ∀ r, (r, true) ∈ steps → "b" ∉ r.names := by
    have hall : ∀ r ∈ kept steps, "b" ∉ r.names := by decide
    exact fun r hr => hall r (List.mem_map.mpr ⟨_, List.mem_filter.mpr ⟨hr, rfl⟩, rfl⟩)
  have hdeleted : ∀ n (hn : n < steps.length), steps[n].2 = false →
      StoresNothing (empty.run ((steps.take n).map (·.1))).2 steps[n].1 ∨
        ∃ register, steps[n].1.target? = some register ∧
          ∀ r, (r, true) ∈ steps → register ∉ r.names := by
    intro n hn hmark
    match n, hn with
    | 1, _ => exact .inr ⟨"b", rfl, hunnamed⟩
    | 2, _ => exact .inl (.inl rfl)
    | 3, _ => exact .inl (.inr ⟨.missingKey "missing", rfl⟩)
    | 0, _ | 4, _ | 5, _ | 6, _ => cases hmark
  exact ⟨hdeleted, (answers_of_kept empty steps hdeleted).1⟩

end Session
end DbImage
