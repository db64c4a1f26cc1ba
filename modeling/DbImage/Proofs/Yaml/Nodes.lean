import DbImage.Yaml.Node.Reading

/-!
# Reading nodes

The rules of the grammar know one fault of their own, and otherwise fail only where they want a token
past the last one.  Which of these happens does not depend on what is wrong there.  So a fault that
is not reported comes up exactly if the grammar wants more tokens than there are and the scanner has
stopped for that fault (`ofTokens_eq_error_iff`).
-/

namespace DbImage
namespace Yaml
namespace Reading

/-- Whatever is wrong where the tokens end, the reading ends in the same way: it succeeds, finds the
text malformed, or wants a token past the last one. -/
def Obeys {α : Type} (x : Reading α) : Prop :=
  ∀ r : Reader,
    (∃ (a : α) (r' : Reader), ∀ f, x.run { r with fault := f } = .ok (a, { r' with fault := f })) ∨
    (∀ f, x.run { r with fault := f } = .error .malformed) ∨
    ∀ f, x.run { r with fault := f } = .error f

namespace Obeys

variable {α β : Type}

theorem pure (a : α) : Obeys (pure a) :=
  fun r => Or.inl ⟨a, r, fun _ => rfl⟩

theorem malformed : Obeys (throw .malformed : Reading α) :=
  fun _ => Or.inr (Or.inl fun _ => rfl)

theorem modify {g : Reader → Reader}
    (hg : ∀ r f, g { r with fault := f } = { g r with fault := f }) :
    Obeys (modify g : Reading Unit) := by
  refine fun r => Or.inl ⟨(), g r, fun f => ?_⟩
  rw [← hg]
  rfl

/-- What is done with the state does not depend on the fault. -/
theorem get_bind {k : Reader → Reading β} (hk : ∀ r f, k { r with fault := f } = k r)
    (hobeys : ∀ r, Obeys (k r)) : Obeys (get >>= k) := by
  intro r
  have hrun : ∀ f, (get >>= k).run { r with fault := f } = (k r).run { r with fault := f } := by
    intro f
    rw [← hk r f]
    rfl
  simp only [hrun]
  exact hobeys r r

theorem bind {x : Reading α} {k : α → Reading β} (hx : Obeys x) (hk : ∀ a, Obeys (k a)) :
    Obeys (x >>= k) := by
  intro r
  simp only [StateT.run_bind]
  rcases hx r with ⟨a, r', ha⟩ | herror | herror
  · simp only [ha]
    exact hk a r'
  · refine Or.inr (Or.inl fun f => ?_)
    rw [herror f]
    rfl
  · refine Or.inr (Or.inr fun f => ?_)
    rw [herror f]
    rfl

theorem ite {c : Prop} [Decidable c] {x y : Reading α} (hx : Obeys x) (hy : Obeys y) :
    Obeys (if c then x else y) := by
  split
  · exact hx
  · exact hy

end Obeys

theorem obeys_peek : Obeys peek := by
  intro h
  obtain ⟨tokens, fault, handles, anchors, graph⟩ := h
  cases tokens with
  | nil => exact Or.inr (Or.inr fun _ => rfl)
  | cons t rest => exact Or.inl ⟨t, ⟨t :: rest, fault, handles, anchors, graph⟩, fun _ => rfl⟩

theorem obeys_drop : Obeys drop :=
  Obeys.modify fun _ _ => rfl

theorem obeys_accept (t : Token) : Obeys (accept t) := by
  refine obeys_peek.bind fun t' => ?_
  split
  · exact obeys_drop.bind fun _ => Obeys.pure true
  · exact Obeys.pure false

theorem obeys_demand (t : Token) : Obeys (demand t) := by
  refine (obeys_accept t).bind fun accepted => ?_
  split
  · exact Obeys.malformed
  · exact Obeys.pure ()

theorem run_allocate_some (name : List Char) (n : Node) (r : Reader) :
    (allocate (some name) n).run r =
      if (r.anchors.find? (·.1 == name)).isSome then .error .malformed
      else .ok (r.graph.length,
        { r with graph := r.graph ++ [n], anchors := (name, r.graph.length) :: r.anchors }) := by
  unfold allocate StateT.run
  simp only [bind, StateT.bind, get, getThe, MonadStateOf.get, StateT.get, pure, Except.pure,
    Except.bind]
  by_cases hname : (r.anchors.find? (·.1 == name)).isSome = true
  · rw [if_pos hname, if_pos hname]
    rfl
  · rw [if_neg hname, if_neg hname]
    rfl

theorem obeys_allocate (anchor? : Option (List Char)) (n : Node) :
    Obeys (allocate anchor? n) := by
  intro r
  cases anchor? with
  | none =>
    exact Or.inl ⟨r.graph.length, { r with graph := r.graph ++ [n] }, fun _ => rfl⟩
  | some name =>
    simp only [run_allocate_some]
    by_cases hname : (r.anchors.find? (·.1 == name)).isSome = true
    · exact Or.inr (Or.inl fun _ => if_pos hname)
    · exact Or.inl ⟨_, { r with
        graph := r.graph ++ [n], anchors := (name, r.graph.length) :: r.anchors },
        fun _ => if_neg hname⟩

theorem obeys_fill (id : NodeId) (n : Node) : Obeys (fill id n) :=
  Obeys.modify fun _ _ => rfl

theorem obeys_empty : Obeys empty := obeys_allocate _ _

theorem obeys_anchored (name : List Char) : Obeys (anchored name) := by
  refine Obeys.get_bind (fun _ _ => rfl) fun r => ?_
  split
  · exact Obeys.pure _
  · exact Obeys.malformed

theorem obeys_resolveTag (handle? : Option (List Char)) (suffix : List Char) :
    Obeys (resolveTag handle? suffix) := by
  unfold resolveTag
  split
  · exact Obeys.pure _
  · refine Obeys.get_bind (fun _ _ => rfl) fun r => ?_
    split
    · exact Obeys.pure _
    · exact Obeys.malformed

theorem obeys_takeAnchor : Obeys takeAnchor := by
  refine obeys_peek.bind fun t => ?_
  split
  · exact obeys_drop.bind fun _ => Obeys.pure _
  · exact Obeys.pure _

theorem obeys_takeTag : Obeys takeTag := by
  refine obeys_peek.bind fun t => ?_
  split
  · exact obeys_drop.bind fun _ => Obeys.pure _
  · exact Obeys.pure _

theorem obeys_properties : Obeys properties := by
  refine obeys_takeAnchor.bind fun first? => ?_
  refine obeys_takeTag.bind fun tag? => ?_
  cases tag? with
  | none =>
    exact Obeys.ite (obeys_takeAnchor.bind fun _ => Obeys.pure _) (Obeys.pure _)
  | some p =>
    obtain ⟨handle?, suffix⟩ := p
    have hend : ∀ anchor? : Option (List Char), Obeys (resolveTag handle? suffix >>= fun uri =>
        Pure.pure (⟨anchor?, some uri⟩ : Properties)) :=
      fun anchor? => (obeys_resolveTag _ _).bind fun _ => Obeys.pure _
    exact Obeys.ite (obeys_takeAnchor.bind hend) (hend first?)

theorem obeys_sequence (p : Properties) {items : Reading (List NodeId)} (hitems : Obeys items) :
    Obeys (sequence p items) := by
  refine (obeys_allocate _ _).bind fun id => ?_
  exact hitems.bind fun ns => (obeys_fill id _).bind fun _ => Obeys.pure id

theorem obeys_mapping (p : Properties) {entries : Reading (List (NodeId × NodeId))}
    (hentries : Obeys entries) : Obeys (mapping p entries) := by
  refine (obeys_allocate _ _).bind fun id => ?_
  exact hentries.bind fun es => (obeys_fill id _).bind fun _ => Obeys.pure id

theorem obeys_nodeUnless (stops : List Token) {node : Reading NodeId} (hnode : Obeys node) :
    Obeys (nodeUnless stops node) :=
  obeys_peek.bind fun _ => Obeys.ite obeys_empty hnode

theorem obeys_valueUnless (stops : List Token) {node : Reading NodeId} (hnode : Obeys node) :
    Obeys (valueUnless stops node) :=
  (obeys_accept _).bind fun _ => Obeys.ite (obeys_nodeUnless stops hnode) obeys_empty

/-! ## The grammar -/

/-- With this much fuel every rule of the grammar obeys. -/
structure GrammarObeys (fuel : Nat) : Prop where
  node : ∀ context, Obeys (node fuel context)
  blockItems : Obeys (blockItems fuel)
  looseItems : Obeys (looseItems fuel)
  blockEntries : Obeys (blockEntries fuel)
  flowItems : ∀ first, Obeys (flowItems fuel first)
  flowEntries : ∀ first, Obeys (flowEntries fuel first)

variable {fuel : Nat}

theorem obeys_node (ih : GrammarObeys fuel) (context : Context) :
    Obeys (node (fuel + 1) context) := by
  rw [node]
  refine obeys_peek.bind fun t => ?_
  split
  · exact obeys_drop.bind fun _ => obeys_anchored _
  refine obeys_properties.bind fun p => ?_
  refine obeys_peek.bind fun t' => ?_
  split
  · exact obeys_sequence p ih.looseItems
  · exact obeys_drop.bind fun _ => obeys_allocate _ _
  · exact obeys_drop.bind fun _ => obeys_sequence p (ih.flowItems true)
  · exact obeys_drop.bind fun _ => obeys_mapping p (ih.flowEntries true)
  · exact obeys_drop.bind fun _ => obeys_sequence p ih.blockItems
  · exact obeys_drop.bind fun _ => obeys_sequence p ih.blockItems
  · exact obeys_drop.bind fun _ => obeys_mapping p ih.blockEntries
  · exact obeys_drop.bind fun _ => obeys_mapping p ih.blockEntries
  · split
    · exact Obeys.malformed
    · exact obeys_allocate _ _

theorem obeys_blockItems (ih : GrammarObeys fuel) : Obeys (blockItems (fuel + 1)) := by
  rw [blockItems]
  refine (obeys_accept _).bind fun _ => Obeys.ite ?_ ?_
  · refine (obeys_nodeUnless _ (ih.node _)).bind fun item => ?_
    exact ih.blockItems.bind fun _ => Obeys.pure _
  · exact (obeys_demand _).bind fun _ => Obeys.pure _

theorem obeys_looseItems (ih : GrammarObeys fuel) : Obeys (looseItems (fuel + 1)) := by
  rw [looseItems]
  refine (obeys_accept _).bind fun _ => Obeys.ite ?_ (Obeys.pure _)
  refine (obeys_nodeUnless _ (ih.node _)).bind fun item => ?_
  exact ih.looseItems.bind fun _ => Obeys.pure _

theorem obeys_blockEntries (ih : GrammarObeys fuel) : Obeys (blockEntries (fuel + 1)) := by
  rw [blockEntries]
  refine (obeys_accept _).bind fun _ => Obeys.ite ?_ ?_
  · refine (obeys_nodeUnless _ (ih.node _)).bind fun key => ?_
    refine (obeys_valueUnless _ (ih.node _)).bind fun value => ?_
    exact ih.blockEntries.bind fun _ => Obeys.pure _
  · exact (obeys_demand _).bind fun _ => Obeys.pure _

theorem obeys_flowItem (ih : GrammarObeys fuel) : Obeys (do
    match ← peek with
    | .key =>
      let item ← mapping ⟨none, none⟩ do
        drop
        let key ← nodeUnless [.value, .flowEntry, .flowSequenceEnd] (node fuel .flow)
        let value ← valueUnless [.flowEntry, .flowSequenceEnd] (node fuel .flow)
        return [(key, value)]
      return item :: (← flowItems fuel false)
    | .flowSequenceEnd =>
      drop
      return []
    | _ =>
      let item ← node fuel .flow
      return item :: (← flowItems fuel false)) := by
  refine obeys_peek.bind fun t => ?_
  split
  · refine (obeys_mapping _ ?_).bind fun item =>
      (ih.flowItems false).bind fun _ => Obeys.pure _
    refine obeys_drop.bind fun _ => ?_
    refine (obeys_nodeUnless _ (ih.node _)).bind fun key => ?_
    exact (obeys_valueUnless _ (ih.node _)).bind fun value => Obeys.pure _
  · exact obeys_drop.bind fun _ => Obeys.pure _
  · exact (ih.node _).bind fun item => (ih.flowItems false).bind fun _ => Obeys.pure _

theorem obeys_flowItems (ih : GrammarObeys fuel) (first : Bool) :
    Obeys (flowItems (fuel + 1) first) := by
  rw [flowItems]
  refine (obeys_accept _).bind fun _ => Obeys.ite (Obeys.pure _) ?_
  exact Obeys.ite ((obeys_demand _).bind fun _ => obeys_flowItem ih) (obeys_flowItem ih)

theorem obeys_flowEntry (ih : GrammarObeys fuel) : Obeys (do
    match ← peek with
    | .key =>
      drop
      let key ← nodeUnless [.value, .flowEntry, .flowMappingEnd] (node fuel .flow)
      let value ← valueUnless [.flowEntry, .flowMappingEnd] (node fuel .flow)
      return (key, value) :: (← flowEntries fuel false)
    | .flowMappingEnd =>
      drop
      return []
    | _ =>
      let key ← node fuel .flow
      let value ← empty
      return (key, value) :: (← flowEntries fuel false)) := by
  refine obeys_peek.bind fun t => ?_
  split
  · refine obeys_drop.bind fun _ => ?_
    refine (obeys_nodeUnless _ (ih.node _)).bind fun key => ?_
    refine (obeys_valueUnless _ (ih.node _)).bind fun value => ?_
    exact (ih.flowEntries false).bind fun _ => Obeys.pure _
  · exact obeys_drop.bind fun _ => Obeys.pure _
  · refine (ih.node _).bind fun key => obeys_empty.bind fun value => ?_
    exact (ih.flowEntries false).bind fun _ => Obeys.pure _

theorem obeys_flowEntries (ih : GrammarObeys fuel) (first : Bool) :
    Obeys (flowEntries (fuel + 1) first) := by
  rw [flowEntries]
  refine (obeys_accept _).bind fun _ => Obeys.ite (Obeys.pure _) ?_
  exact Obeys.ite ((obeys_demand _).bind fun _ => obeys_flowEntry ih) (obeys_flowEntry ih)

theorem grammarObeys (fuel : Nat) : GrammarObeys fuel := by
  induction fuel with
  | zero =>
    exact ⟨fun _ => Obeys.malformed, Obeys.malformed, Obeys.malformed, Obeys.malformed,
      fun _ => Obeys.malformed, fun _ => Obeys.malformed⟩
  | succ fuel ih =>
    exact ⟨obeys_node ih, obeys_blockItems ih, obeys_looseItems ih, obeys_blockEntries ih,
      obeys_flowItems ih, obeys_flowEntries ih⟩

/-! ## Documents -/

theorem obeys_directives (fuel : Nat) (versioned : Bool)
    (given : List (List Char × List Char)) : Obeys (directives fuel versioned given) := by
  induction fuel generalizing versioned given with
  | zero => exact Obeys.malformed
  | succ fuel ih =>
    rw [directives]
    refine obeys_peek.bind fun t => ?_
    split
    · refine obeys_drop.bind fun _ => ?_
      split
      · exact Obeys.ite Obeys.malformed (ih _ _)
      · exact Obeys.ite Obeys.malformed (ih _ _)
      · exact ih _ _
    · exact Obeys.modify fun _ _ => rfl

theorem obeys_documentEnds (fuel : Nat) : Obeys (documentEnds fuel) := by
  induction fuel with
  | zero => exact Obeys.malformed
  | succ fuel ih => exact (obeys_accept _).bind fun _ => Obeys.ite ih (Obeys.pure ())

theorem obeys_documentEnd (fuel : Nat) (root : NodeId) : Obeys (do
    documentEnds fuel
    demand .streamEnd
    return some root) :=
  (obeys_documentEnds fuel).bind fun _ => (obeys_demand _).bind fun _ => Obeys.pure _

/-- A document that starts with a mark may hold no node. -/
theorem obeys_markedDocument (fuel : Nat) : Obeys (do
    let root ← match ← peek with
      | .directive _ | .documentStart | .documentEnd | .streamEnd => empty
      | _ => node fuel .block
    documentEnds fuel
    demand .streamEnd
    return some root) := by
  refine obeys_peek.bind fun t => ?_
  split
  · exact obeys_empty.bind (obeys_documentEnd fuel)
  · exact obeys_empty.bind (obeys_documentEnd fuel)
  · exact obeys_empty.bind (obeys_documentEnd fuel)
  · exact obeys_empty.bind (obeys_documentEnd fuel)
  · exact ((grammarObeys fuel).node _).bind (obeys_documentEnd fuel)

theorem obeys_document (fuel : Nat) : Obeys (document fuel) := by
  have hmarked := obeys_markedDocument fuel
  refine obeys_peek.bind fun t => ?_
  split
  · exact Obeys.pure none
  · exact (obeys_directives _ _ _).bind fun _ => (obeys_demand _).bind fun _ => hmarked
  · exact (obeys_directives _ _ _).bind fun _ => (obeys_demand _).bind fun _ => hmarked
  · exact ((grammarObeys fuel).node _).bind (obeys_documentEnd fuel)

end Reading

namespace Graph

/-- The grammar wants a token past these, whatever is wrong there. -/
def WantsMore (tokens : List Token) : Prop :=
  ∀ f, ofTokens ⟨tokens, some f⟩ = .error f

theorem ofTokens_eq_map_run (tokens : List Token) (fault? : Option Fault) :
    ofTokens ⟨tokens, fault?⟩ =
      ((Reading.document (2 * tokens.length + 2)).run
        ⟨tokens, fault?.getD .malformed, Reading.standardHandles, [], []⟩).map
        fun p => (p.2.graph, p.1) := by
  unfold ofTokens
  dsimp only
  generalize (Reading.document _).run _ = read
  cases read <;> rfl

/-- The form of the text aside, the nodes are at fault exactly if the scanner has stopped before the
grammar was content. -/
theorem ofTokens_eq_error_iff {tokens : List Token} {fault? : Option Fault} {f : Fault}
    (hf : f ≠ .malformed) :
    ofTokens ⟨tokens, fault?⟩ = .error f ↔ fault? = some f ∧ WantsMore tokens := by
  -- Where the reading never looks past the tokens, the fault does not matter.
  have hsettled : ∀ out, (∀ given?, ofTokens ⟨tokens, given?⟩ = out) → out ≠ .error f →
      (ofTokens ⟨tokens, fault?⟩ = .error f ↔ fault? = some f ∧ WantsMore tokens) := by
    intro out hout hne
    rw [hout]
    constructor
    · exact fun h => absurd h hne
    · intro h
      obtain ⟨-, hwants⟩ := h
      exact absurd ((hout (some f)).symm.trans (hwants f)) hne
  have hread := Reading.obeys_document (2 * tokens.length + 2)
    ⟨tokens, .malformed, Reading.standardHandles, [], []⟩
  rcases hread with ⟨root?, r, hok⟩ | hmalformed | hend
  · refine hsettled (.ok (r.graph, root?)) (fun given? => ?_) (fun h => nomatch h)
    rw [ofTokens_eq_map_run, hok]
    rfl
  · refine hsettled (.error .malformed) (fun given? => ?_) ?_
    · rw [ofTokens_eq_map_run, hmalformed]
      rfl
    · exact fun h => hf (Except.error.inj h).symm
  · have hstop : ∀ given?, ofTokens ⟨tokens, given?⟩ = .error (given?.getD .malformed) := by
      intro given?
      rw [ofTokens_eq_map_run, hend]
      rfl
    have hwants : WantsMore tokens := fun f' => hstop (some f')
    rw [hstop, and_iff_left hwants]
    cases fault? with
    | none => exact ⟨fun h => absurd (Except.error.inj h).symm hf, fun h => nomatch h⟩
    | some f' => rw [Option.getD_some, Except.error.injEq, Option.some.injEq]

end Graph
end Yaml
end DbImage
