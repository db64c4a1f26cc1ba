import DbImage.Proofs.Yaml.Merging
import DbImage.Proofs.Yaml.NodeText

/-!
# Construction step by step

Building a value meets the nodes of a document one after the other.  `Reaches` has one rule for each
step that succeeds, and says with which tasks in hand.  A fault other than malformed nodes shows
itself in one place alone: at a node that is met for the first time and has no value
(`build_eq_error_iff`).  The number of nodes bounds the number of collections, so the build never
stops short of such a node.
-/

namespace DbImage
namespace Yaml

/-- What there is to do inside a collection. -/
inductive Task where
  /-- Meet a node. -/
  | value (n : NodeId)
  /-- Meet a node that must turn out to have no parts. -/
  | key (n : NodeId)
  /-- Meet the key and the value of a mapping that has one entry. -/
  | pair (n : NodeId)
  deriving DecidableEq, Repr

namespace Task

/-- The node that a task meets. -/
def node? : Task → Option NodeId
  | value n => some n
  | key n => some n
  | pair _ => none

/-- The tasks of the entries of a mapping. -/
def ofEntries (es : List (NodeId × NodeId)) : List Task :=
  es.flatMap fun e => [key e.1, value e.2]

end Task

/-- Opening the collection `n` changes the nodes from `g` to `g'` and gives these tasks. -/
inductive Opens (g : Graph) (n : NodeId) : Graph → List Task → Prop where
  | items {items : List NodeId} :
    g.find n = .sequence .seq items → Opens g n g (items.map .value)
  | pairs {tag : Tag} {items : List NodeId} :
    g.find n = .sequence tag items → tag = .omap ∨ tag = .pairs → Opens g n g (items.map .pair)
  | entries {tag : Tag} {es : List (NodeId × NodeId)} {g' : Graph} :
    g.find n = .mapping tag es → tag = .map ∨ tag = .set → g.flatten n = .ok g' →
    Opens g n g' (Task.ofEntries (g'.entries n))

namespace Construction

/-- The build from `root` on comes to `c` without a fault, with tasks in hand. -/
inductive Reaches (g : Graph) (root : NodeId) : Construction → List Task → Prop where
  | start : Reaches g root (ofGraph g) [.value root]
  | value {c c' : Construction} {n : NodeId} {ts : List Task} :
    Reaches g root c (.value n :: ts) → c.visit n = .ok c' → Reaches g root c' ts
  | key {c c' : Construction} {n : NodeId} {ts : List Task} :
    Reaches g root c (.key n :: ts) → c.visit n = .ok c' → (c'.scalar? n).isSome = true →
    Reaches g root c' ts
  | pair {c : Construction} {n k v : NodeId} {tag : Tag} {ts : List Task} :
    Reaches g root c (.pair n :: ts) → c.graph.find n = .mapping tag [(k, v)] →
    Reaches g root c (.value k :: .value v :: ts)
  | fill {c : Construction} {n : NodeId} {rest : List NodeId} {g' : Graph} {ts : List Task} :
    Reaches g root c [] → c.waiting = n :: rest → Opens c.graph n g' ts →
    Reaches g root { c with graph := g', waiting := rest } ts

/-- The build comes to `c` and next to the node `n`, which is new to it. -/
def Meets (g : Graph) (root : NodeId) (c : Construction) (n : NodeId) : Prop :=
  (∃ t ts, Reaches g root c (t :: ts) ∧ t.node? = some n) ∧ c.scalar? n = none ∧ n ∉ c.opened

/-! ## Tasks -/

/-- Carries out tasks in order. -/
def runTasks (c : Construction) : List Task → Except Fault Construction
  | [] => .ok c
  | .value n :: ts =>
    match c.visit n with
    | .ok c => runTasks c ts
    | .error f => .error f
  | .key n :: ts =>
    match c.visit n with
    | .ok c => if (c.scalar? n).isSome then runTasks c ts else .error .malformed
    | .error f => .error f
  | .pair n :: ts =>
    match c.graph.find n with
    | .mapping _ [(k, v)] =>
      match c.visit k with
      | .ok c =>
        match c.visit v with
        | .ok c => runTasks c ts
        | .error f => .error f
      | .error f => .error f
    | _ => .error .malformed

variable {c c' : Construction} {n : NodeId} {f : Fault}

theorem runTasks_pair {k v : NodeId} {tag : Tag} (h : c.graph.find n = .mapping tag [(k, v)])
    (ts : List Task) :
    c.runTasks (.pair n :: ts) = c.runTasks (.value k :: .value v :: ts) := by
  simp only [runTasks, h]

theorem runTasks_pair_of_not (h : ∀ tag k v, c.graph.find n ≠ .mapping tag [(k, v)])
    (ts : List Task) : c.runTasks (.pair n :: ts) = .error .malformed := by
  rw [runTasks]
  split
  · rename_i tag k v hn
    exact absurd hn (h tag k v)
  · rfl

theorem visitAll_eq (c : Construction) (ns : List NodeId) :
    c.visitAll ns = c.runTasks (ns.map .value) := by
  induction ns generalizing c with
  | nil => rfl
  | cons n rest ih =>
    rw [visitAll, List.map_cons, runTasks]
    cases c.visit n with
    | ok c' => exact ih c'
    | error f => rfl

theorem visitEntries_eq (c : Construction) (es : List (NodeId × NodeId)) :
    c.visitEntries es = c.runTasks (Task.ofEntries es) := by
  induction es generalizing c with
  | nil => rfl
  | cons e rest ih =>
    obtain ⟨k, v⟩ := e
    show c.visitEntries ((k, v) :: rest) = c.runTasks (.key k :: .value v :: Task.ofEntries rest)
    rw [visitEntries, runTasks]
    cases hk : c.visit k with
    | error f => rfl
    | ok c₁ =>
      simp only [bind, Except.bind]
      cases hs : c₁.scalar? k with
      | none => rfl
      | some s =>
        simp only [Option.isNone_some, Bool.false_eq_true, if_false, Option.isSome_some, if_true]
        rw [runTasks]
        cases c₁.visit v with
        | ok c₂ => exact ih c₂
        | error f => rfl

theorem visitPairs_eq (c : Construction) (ns : List NodeId) :
    c.visitPairs ns = c.runTasks (ns.map .pair) := by
  induction ns generalizing c with
  | nil => rfl
  | cons n rest ih =>
    rw [visitPairs, List.map_cons]
    split
    · rename_i tag k v hn
      rw [runTasks_pair hn, runTasks]
      simp only [bind, Except.bind, visitAll]
      cases c.visit k with
      | error f => rfl
      | ok c₁ =>
        simp only
        rw [runTasks]
        cases c₁.visit v with
        | ok c₂ => exact ih c₂
        | error f => rfl
    · rename_i hn
      rw [runTasks_pair_of_not fun tag k v => hn tag k v]

/-! ## Filling -/

theorem fill_of_opens {g' : Graph} {ts : List Task} (h : Opens c.graph n g' ts) :
    c.fill n = { c with graph := g' }.runTasks ts := by
  cases h with
  | items hn =>
    rw [← visitAll_eq]
    simp only [fill, hn, Node.tag]
  | pairs hn htag =>
    rw [← visitPairs_eq]
    rcases htag with rfl | rfl
    · simp only [fill, hn, Node.tag]
    · simp only [fill, hn, Node.tag]
  | entries hn htag hflat =>
    rw [← visitEntries_eq]
    have hfill : fill.fillMapping c n = { c with graph := g' }.visitEntries (g'.entries n) := by
      rw [fill.fillMapping, hflat]
      rfl
    rcases htag with rfl | rfl
    · simp only [fill, hn, Node.tag, hfill]
    · simp only [fill, hn, Node.tag, hfill]

/-- What cannot be opened is malformed. -/
theorem fill_of_not_opens (h : ∀ g' ts, ¬ Opens c.graph n g' ts) :
    c.fill n = .error .malformed := by
  have hmapping : ∀ tag es, c.graph.find n = .mapping tag es → tag = .map ∨ tag = .set →
      fill.fillMapping c n = .error .malformed := by
    intro tag es hn htag
    cases hflat : c.graph.flatten n with
    | ok g' => exact absurd (.entries hn htag hflat) (h g' _)
    | error f =>
      obtain rfl := Graph.flatten_eq_error hflat
      rw [fill.fillMapping, hflat]
      rfl
  unfold fill
  split
  · rename_i tag items htag hn
    rw [hn] at htag
    obtain rfl : tag = .seq := htag
    exact absurd (.items hn) (h _ _)
  · rename_i tag items htag hn
    rw [hn] at htag
    exact absurd (.pairs hn (Or.inl htag)) (h _ _)
  · rename_i tag items htag hn
    rw [hn] at htag
    exact absurd (.pairs hn (Or.inr htag)) (h _ _)
  · rename_i tag es htag hn
    rw [hn] at htag
    exact hmapping tag es hn (Or.inl htag)
  · rename_i tag es htag hn
    rw [hn] at htag
    exact hmapping tag es hn (Or.inr htag)
  · rfl

/-! ## What every step keeps -/

/-- Meeting a node leaves everything as it is, opens a collection, or gives a scalar its value. -/
theorem visit_eq_ok (h : c.visit n = .ok c') :
    c' = c ∨
    (n ∉ c.opened ∧ (c.graph.find n).tag.isCollection = true ∧
      c' = { c with opened := n :: c.opened, waiting := c.waiting ++ [n] }) ∨
    ∃ s, c' = { c with scalars := (n, s) :: c.scalars } := by
  unfold visit at h
  split at h
  · exact Or.inl (Except.ok.inj h).symm
  rename_i hnew
  split at h
  · rename_i hcoll
    have hopened : n ∉ c.opened := fun hm => hnew (by simp [hm])
    exact Or.inr (Or.inl ⟨hopened, hcoll, (Except.ok.inj h).symm⟩)
  · cases hs : c.graph.scalar n with
    | ok s =>
      rw [hs] at h
      exact Or.inr (Or.inr ⟨s, (Except.ok.inj h).symm⟩)
    | error f =>
      rw [hs] at h
      cases h

theorem visit_eq_error_iff (hf : f.isReported = false) :
    c.visit n = .error f ↔ c.scalar? n = none ∧ n ∉ c.opened ∧ c.graph.Misread n f := by
  unfold visit
  by_cases hold : ((c.scalar? n).isSome || c.opened.contains n) = true
  · rw [if_pos hold]
    constructor
    · exact fun h => nomatch h
    · intro h
      obtain ⟨hs, ho, -⟩ := h
      simp [hs, ho] at hold
  · rw [if_neg hold]
    have hnew : c.scalar? n = none ∧ n ∉ c.opened := by simpa using hold
    by_cases hcoll : (c.graph.find n).tag.isCollection = true
    · rw [if_pos hcoll]
      constructor
      · exact fun h => nomatch h
      · intro h
        obtain ⟨-, -, hm⟩ := h
        rw [hm.not_isCollection] at hcoll
        cases hcoll
    · rw [if_neg hcoll, Value.map_eq_error, Graph.scalar_eq_error_iff hf]
      exact ⟨fun hm => ⟨hnew.1, hnew.2, hm⟩, fun ⟨_, _, hm⟩ => hm⟩

theorem lt_length_of_isCollection {g : Graph} (h : (g.find n).tag.isCollection = true) :
    n < g.length := by
  refine Nat.lt_of_not_le fun hle => ?_
  rw [Graph.find, List.getElem?_eq_none hle] at h
  cases h

/-- The collections that were opened are different nodes, and those that wait are among them. -/
structure Sound (g : Graph) (c : Construction) : Prop where
  length : c.graph.length = g.length
  nodup : c.opened.Nodup
  opened_lt : ∀ n ∈ c.opened, n < g.length
  waiting_le : c.waiting.length ≤ c.opened.length

/-- The number of collections that were filled. -/
def filled (c : Construction) : Nat :=
  c.opened.length - c.waiting.length

variable {g : Graph} {root : NodeId}

theorem Sound.opened_le (hs : Sound g c) : c.opened.length ≤ g.length := by
  have hsub : c.opened ⊆ List.range g.length :=
    fun n hn => List.mem_range.mpr (hs.opened_lt n hn)
  have hlen := hs.nodup.length_le_of_subset hsub
  rwa [List.length_range] at hlen

/-- Meeting a node fills nothing. -/
theorem Sound.visit (hs : Sound g c) (h : c.visit n = .ok c') :
    Sound g c' ∧ c'.filled = c.filled := by
  rcases visit_eq_ok h with rfl | ⟨hnew, hcoll, rfl⟩ | ⟨s, rfl⟩
  · exact ⟨hs, rfl⟩
  · have hlt : n < g.length := hs.length ▸ lt_length_of_isCollection hcoll
    have hle := hs.waiting_le
    refine ⟨⟨hs.length, List.nodup_cons.mpr ⟨hnew, hs.nodup⟩,
      List.forall_mem_cons.mpr ⟨hlt, hs.opened_lt⟩, ?_⟩, ?_⟩
    · simp only [List.length_append, List.length_cons, List.length_nil]
      omega
    · simp only [filled, List.length_append, List.length_cons, List.length_nil]
      omega
  · exact ⟨⟨hs.length, hs.nodup, hs.opened_lt, hs.waiting_le⟩, rfl⟩

theorem length_of_opens {g' : Graph} {ts : List Task} (h : Opens g n g' ts) :
    g'.length = g.length := by
  cases h with
  | items _ => rfl
  | pairs _ _ => rfl
  | entries _ _ hflat => exact Graph.length_flatten hflat

/-- A step that fills a collection is the only one that counts. -/
theorem Sound.fill (hs : Sound g c) {rest : List NodeId} {g' : Graph} {ts : List Task}
    (hw : c.waiting = n :: rest) (ho : Opens c.graph n g' ts) :
    Sound g { c with graph := g', waiting := rest } ∧
      ({ c with graph := g', waiting := rest } : Construction).filled = c.filled + 1 := by
  have hle := hs.waiting_le
  rw [hw, List.length_cons] at hle
  refine ⟨⟨(length_of_opens ho).trans hs.length, hs.nodup, hs.opened_lt, ?_⟩, ?_⟩
  · show rest.length ≤ c.opened.length
    omega
  · rw [filled, filled, hw, List.length_cons]
    show c.opened.length - rest.length = c.opened.length - (rest.length + 1) + 1
    omega

theorem sound_ofGraph (g : Graph) : Sound g (ofGraph g) :=
  ⟨rfl, List.nodup_nil, fun _ h => (nomatch h), Nat.le_refl 0⟩

theorem Reaches.sound {ts : List Task} (h : Reaches g root c ts) : Sound g c := by
  induction h with
  | start => exact sound_ofGraph g
  | value _ hv ih => exact (ih.visit hv).1
  | key _ hv _ ih => exact (ih.visit hv).1
  | pair _ _ ih => exact ih
  | fill _ hw ho ih => exact (ih.fill hw ho).1

/-! ## What the whole build comes to -/

/-- The tasks in hand, and then filling what waits. -/
def outcome (fuel : Nat) (c : Construction) (ts : List Task) : Except Fault Construction :=
  match c.runTasks ts with
  | .ok c => fillAll fuel c
  | .error f => .error f

theorem outcome_fill {fuel : Nat} {rest : List NodeId} {g' : Graph} {ts : List Task}
    (hw : c.waiting = n :: rest) (ho : Opens c.graph n g' ts) :
    outcome (fuel + 1) c [] = outcome fuel { c with graph := g', waiting := rest } ts := by
  have hfill : { c with waiting := rest }.fill n =
      { c with graph := g', waiting := rest }.runTasks ts :=
    fill_of_opens (c := { c with waiting := rest }) ho
  show fillAll (fuel + 1) c = _
  rw [fillAll, hw]
  simp only
  rw [hfill]
  rfl

/-- From every point that the build reaches, the rest comes to what the whole comes to. -/
theorem Reaches.outcome_eq {ts : List Task} (h : Reaches g root c ts) :
    outcome (g.length + 1) (ofGraph g) [.value root] =
      outcome (g.length + 1 - c.filled) c ts := by
  induction h with
  | start => rfl
  | value hr hv ih =>
    rw [ih, (hr.sound.visit hv).2, outcome, outcome, runTasks, hv]
  | key hr hv hs ih =>
    rw [ih, (hr.sound.visit hv).2, outcome, outcome, runTasks, hv]
    simp only [hs, if_true]
  | pair _ hn ih =>
    rw [ih, outcome, outcome, runTasks_pair hn]
  | @fill c n rest g' ts hr hw ho ih =>
    have hfilled := (hr.sound.fill hw ho).2
    have hle := hr.sound.opened_le
    have hlt : c.filled < c.opened.length := by
      have hwait := hr.sound.waiting_le
      rw [hw, List.length_cons] at hwait
      rw [filled, hw, List.length_cons]
      omega
    rw [ih, hfilled, show g.length + 1 - c.filled = g.length + 1 - (c.filled + 1) + 1 by omega]
    exact outcome_fill hw ho

theorem Reaches.nil_of_runTasks {ts : List Task} (h : Reaches g root c ts)
    (hrun : c.runTasks ts = .ok c') : Reaches g root c' [] := by
  induction ts generalizing c with
  | nil =>
    obtain rfl := Except.ok.inj hrun
    exact h
  | cons t ts ih =>
    cases t with
    | value n =>
      rw [runTasks] at hrun
      split at hrun
      · exact ih (h.value ‹_›) hrun
      · cases hrun
    | key n =>
      rw [runTasks] at hrun
      split at hrun
      · split at hrun
        · exact ih (h.key ‹_› ‹_›) hrun
        · cases hrun
      · cases hrun
    | pair n =>
      by_cases hn : ∃ tag k v, c.graph.find n = .mapping tag [(k, v)]
      · obtain ⟨tag, k, v, hn⟩ := hn
        have h' := h.pair hn
        rw [runTasks_pair hn, runTasks] at hrun
        split at hrun
        · rename_i c₁ hk
          rw [runTasks] at hrun
          split at hrun
          · exact ih ((h'.value hk).value ‹_›) hrun
          · cases hrun
        · cases hrun
      · rw [runTasks_pair_of_not fun tag k v hm => hn ⟨tag, k, v, hm⟩] at hrun
        cases hrun

/-- A node that a task in hand is about, and that has no value. -/
def Stuck (g : Graph) (root : NodeId) (f : Fault) : Prop :=
  ∃ c t n ts, Reaches g root c (t :: ts) ∧ t.node? = some n ∧ c.visit n = .error f

theorem Reaches.stuck_of_runTasks {ts : List Task} (h : Reaches g root c ts)
    (hf : f ≠ .malformed) (hrun : c.runTasks ts = .error f) : Stuck g root f := by
  induction ts generalizing c with
  | nil => cases hrun
  | cons t ts ih =>
    cases t with
    | value n =>
      rw [runTasks] at hrun
      split at hrun
      · exact ih (h.value ‹_›) hrun
      · rename_i hv
        exact ⟨c, .value n, n, ts, h, rfl, hv.trans hrun⟩
    | key n =>
      rw [runTasks] at hrun
      split at hrun
      · split at hrun
        · exact ih (h.key ‹_› ‹_›) hrun
        · exact absurd (Except.error.inj hrun).symm hf
      · rename_i hv
        exact ⟨c, .key n, n, ts, h, rfl, hv.trans hrun⟩
    | pair n =>
      by_cases hn : ∃ tag k v, c.graph.find n = .mapping tag [(k, v)]
      · obtain ⟨tag, k, v, hn⟩ := hn
        have h' := h.pair hn
        rw [runTasks_pair hn, runTasks] at hrun
        split at hrun
        · rename_i c₁ hk
          rw [runTasks] at hrun
          split at hrun
          · exact ih ((h'.value hk).value ‹_›) hrun
          · rename_i hv
            exact ⟨c₁, .value v, v, ts, h'.value hk, rfl, hv.trans hrun⟩
        · rename_i hk
          exact ⟨c, .value k, k, _, h', rfl, hk.trans hrun⟩
      · rw [runTasks_pair_of_not fun tag k v hm => hn ⟨tag, k, v, hm⟩] at hrun
        exact absurd (Except.error.inj hrun).symm hf

theorem Reaches.stuck_of_fillAll {fuel : Nat} (h : Reaches g root c []) (hf : f ≠ .malformed)
    (hrun : fillAll fuel c = .error f) : Stuck g root f := by
  induction fuel generalizing c with
  | zero => cases hrun
  | succ fuel ih =>
    cases hw : c.waiting with
    | nil =>
      rw [fillAll, hw] at hrun
      cases hrun
    | cons n rest =>
      by_cases ho : ∃ g' ts, Opens c.graph n g' ts
      · obtain ⟨g', ts, ho⟩ := ho
        have hrun' : outcome fuel { c with graph := g', waiting := rest } ts = .error f :=
          (outcome_fill hw ho).symm.trans hrun
        have h' := h.fill hw ho
        rw [outcome] at hrun'
        split at hrun'
        · exact ih (h'.nil_of_runTasks ‹_›) hrun'
        · rename_i hts
          exact h'.stuck_of_runTasks hf (hts.trans hrun')
      · have hno : ({ c with waiting := rest } : Construction).fill n = .error .malformed :=
          fill_of_not_opens fun g' ts hopen => ho ⟨g', ts, hopen⟩
        rw [fillAll, hw] at hrun
        simp only at hrun
        rw [hno] at hrun
        exact absurd (Except.error.inj hrun).symm hf

theorem build_eq_error {depth : Nat} :
    build g root depth = .error f ↔
      outcome (g.length + 1) (ofGraph g) [.value root] = .error f := by
  rw [build, outcome, runTasks]
  cases (ofGraph g).visit root with
  | error f' => simp [bind, Except.bind]
  | ok c =>
    simp only [bind, Except.bind, runTasks]
    cases fillAll (g.length + 1) c with
    | ok c => simp [pure, Except.pure]
    | error f' => simp

/-- Other faults than malformed nodes and bad values come up where the build meets a node that is
misread, and nowhere else. -/
theorem build_eq_error_iff {depth : Nat} (hf : f.isReported = false) :
    build g root depth = .error f ↔ ∃ c n, Meets g root c n ∧ c.graph.Misread n f := by
  have hne := Fault.ne_malformed hf
  rw [build_eq_error]
  constructor
  · intro h
    have hstuck : Stuck g root f := by
      rw [outcome] at h
      split at h
      · exact (Reaches.start.nil_of_runTasks ‹_›).stuck_of_fillAll hne h
      · rename_i hrun
        exact Reaches.start.stuck_of_runTasks hne (hrun.trans h)
    obtain ⟨c, t, n, ts, hr, hn, hv⟩ := hstuck
    obtain ⟨hs, ho, hm⟩ := (visit_eq_error_iff hf).mp hv
    exact ⟨c, n, ⟨⟨t, ts, hr, hn⟩, hs, ho⟩, hm⟩
  · intro h
    obtain ⟨c, n, ⟨⟨t, ts, hr, hn⟩, hs, ho⟩, hm⟩ := h
    have hv := (visit_eq_error_iff hf).mpr ⟨hs, ho, hm⟩
    rw [hr.outcome_eq, outcome]
    cases t with
    | value m =>
      obtain rfl : m = n := Option.some.inj hn
      rw [runTasks, hv]
    | key m =>
      obtain rfl : m = n := Option.some.inj hn
      rw [runTasks, hv]
    | pair m => cases hn

end Construction
end Yaml
end DbImage
