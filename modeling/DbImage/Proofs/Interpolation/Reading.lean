import DbImage.Interpolation

/-!
# What a template means

A template is read from the left: a token wherever one starts, and otherwise one character that stands
for itself.  `Reads` states this without saying how tokens are found.  Tokens are recognised by what
they begin with, so the reading is one, and `interpolate_eq_meaning` says what a template comes to in
terms of it.
-/

namespace DbImage
namespace Interpolation

/-! ## Tokens -/

/-- A letter or `_`. -/
def IsNameStart (c : Char) : Prop :=
  'A' ≤ c ∧ c ≤ 'Z' ∨ 'a' ≤ c ∧ c ≤ 'z' ∨ c = '_'

/-- A letter, `_` or a digit. -/
def IsNameRest (c : Char) : Prop :=
  IsNameStart c ∨ '0' ≤ c ∧ c ≤ '9'

/-- The name of a variable: a letter or `_`, then letters, `_` and digits. -/
inductive IsName : List Char → Prop where
  | cons {c : Char} {rest : List Char} (first : IsNameStart c) (others : ∀ d ∈ rest, IsNameRest d) :
    IsName (c :: rest)

/-- The pieces that are written as tokens. An alternative is any text without a closing brace. -/
inductive IsToken : Piece → Prop where
  | dollar : IsToken .dollar
  | value {name : List Char} (isName : IsName name) : IsToken (.value name)
  | orElse {name alt : List Char} (isName : IsName name) (closing : '}' ∉ alt) :
    IsToken (.orElse name alt)
  | ifSet {name alt : List Char} (isName : IsName name) (closing : '}' ∉ alt) :
    IsToken (.ifSet name alt)

theorem isNameStart_iff {c : Char} : isNameStart c = true ↔ IsNameStart c := by
  have halpha : c.isAlpha = (c.isUpper || c.isLower) := rfl
  have hupper : c.isUpper = decide ('A' ≤ c ∧ c ≤ 'Z') := rfl
  have hlower : c.isLower = (decide ('a' ≤ c) && decide (c ≤ 'z')) := rfl
  rw [isNameStart, IsNameStart, Bool.or_eq_true, halpha, Bool.or_eq_true, hupper, hlower,
    beq_iff_eq, or_assoc]
  simp only [Bool.and_eq_true, decide_eq_true_eq]

theorem isNameRest_iff {c : Char} : isNameRest c = true ↔ IsNameRest c := by
  rw [IsNameRest, ← isNameStart_iff, isNameStart, isNameRest, Char.isAlphanum, Char.isDigit]
  simp only [ge_iff_le, Bool.or_eq_true, Bool.and_eq_true, decide_eq_true_eq, beq_iff_eq]
  show (c.isAlpha = true ∨ '0' ≤ c ∧ c ≤ '9') ∨ c = '_' ↔
    (c.isAlpha = true ∨ c = '_') ∨ '0' ≤ c ∧ c ≤ '9'
  exact or_right_comm

theorem isName_iff {name : List Char} :
    IsName name ↔ name.head?.any isNameStart = true ∧ ∀ c ∈ name, isNameRest c = true := by
  constructor
  · rintro ⟨hfirst, hothers⟩
    refine ⟨isNameStart_iff.mpr hfirst, List.forall_mem_cons.mpr ⟨?_, fun d hd => ?_⟩⟩
    · exact isNameRest_iff.mpr (Or.inl hfirst)
    · exact isNameRest_iff.mpr (hothers d hd)
  · rintro ⟨hfirst, hall⟩
    cases name with
    | nil => exact absurd hfirst (by decide)
    | cons c rest =>
      rw [List.forall_mem_cons] at hall
      exact ⟨isNameStart_iff.mp hfirst, fun d hd => isNameRest_iff.mp (hall.2 d hd)⟩

/-- A name ends where a character follows that belongs to no name. -/
theorem takeWhile_name {name : List Char} (h : ∀ c ∈ name, isNameRest c = true) {stop : Char}
    (hstop : isNameRest stop = false) (t : List Char) :
    (name ++ stop :: t).takeWhile isNameRest = name ∧
      (name ++ stop :: t).dropWhile isNameRest = stop :: t := by
  rw [List.takeWhile_append_of_pos h, List.dropWhile_append_of_pos h,
    List.takeWhile_cons_of_neg (by simp [hstop]), List.dropWhile_cons_of_neg (by simp [hstop]),
    List.append_nil]
  exact ⟨rfl, rfl⟩

/-- An alternative ends at the first closing brace. -/
theorem takeWhile_alternative {alt : List Char} (h : '}' ∉ alt) (t : List Char) :
    (alt ++ '}' :: t).takeWhile (· ≠ '}') = alt := by
  have hall : ∀ c ∈ alt, decide (c ≠ '}') = true := fun c hc => decide_eq_true fun e => h (e ▸ hc)
  rw [List.takeWhile_append_of_pos hall, List.takeWhile_cons_of_neg (by simp), List.append_nil]

/-! ## Finding tokens -/

theorem placeholder?_of_isToken {body t : List Char} {p : Piece} (hp : IsToken p)
    (hsource : p.source = '$' :: '{' :: body) : placeholder? (body ++ t) = some p := by
  have hmodifier : ∀ {name alt : List Char} {c : Char}, IsName name → '}' ∉ alt →
      placeholder? ((name ++ ':' :: c :: alt ++ ['}']) ++ t) =
        if c = '-' then some (.orElse name alt) else if c = '+' then some (.ifSet name alt)
        else none := by
    intro name alt c hn ha
    obtain ⟨hfirst, hall⟩ := isName_iff.mp hn
    obtain ⟨htake, hdrop⟩ :=
      takeWhile_name hall (show isNameRest ':' = false by decide) (c :: (alt ++ '}' :: t))
    have halt := takeWhile_alternative ha t
    have hlist : (name ++ ':' :: c :: alt ++ ['}']) ++ t = name ++ ':' :: c :: (alt ++ '}' :: t) := by
      simp
    rw [hlist, placeholder?, htake, hdrop]
    simp only [hfirst, if_true, halt]
    rw [if_pos (by simp)]
  cases hp with
  | dollar => simp [Piece.source] at hsource
  | @value name hn =>
    obtain rfl : name ++ ['}'] = body := by simpa [Piece.source] using hsource
    obtain ⟨hfirst, hall⟩ := isName_iff.mp hn
    obtain ⟨htake, hdrop⟩ :=
      takeWhile_name hall (show isNameRest '}' = false by decide) t
    rw [List.append_assoc, List.singleton_append, placeholder?, htake, hdrop]
    simp only [hfirst, if_true]
  | @orElse name alt hn ha =>
    obtain rfl : name ++ ':' :: '-' :: alt ++ ['}'] = body := by
      simpa [Piece.source] using hsource
    rw [hmodifier hn ha, if_pos rfl]
  | @ifSet name alt hn ha =>
    obtain rfl : name ++ ':' :: '+' :: alt ++ ['}'] = body := by
      simpa [Piece.source] using hsource
    rw [hmodifier hn ha, if_neg (by decide), if_pos rfl]

theorem isToken_of_placeholder? {s : List Char} {p : Piece} (h : placeholder? s = some p) :
    IsToken p ∧ ∃ t, '$' :: '{' :: s = p.source ++ t := by
  have hsplit : s.takeWhile isNameRest ++ s.dropWhile isNameRest = s :=
    List.takeWhile_append_dropWhile
  have hall : ∀ c ∈ s.takeWhile isNameRest, isNameRest c = true :=
    List.all_eq_true.mp List.all_takeWhile
  rw [placeholder?] at h
  generalize s.takeWhile isNameRest = name at h hsplit hall
  split at h
  · rename_i hfirst
    have hn : IsName name := isName_iff.mpr ⟨hfirst, hall⟩
    split at h
    · rename_i t hdrop
      obtain rfl : Piece.value name = p := Option.some.inj h
      rw [hdrop] at hsplit
      exact ⟨.value hn, t, by simp [Piece.source, ← hsplit]⟩
    · rename_i c rest hdrop
      rw [hdrop] at hsplit
      split at h
      · rename_i hclose
        have halt : rest.takeWhile (· ≠ '}') ++ rest.dropWhile (· ≠ '}') = rest :=
          List.takeWhile_append_dropWhile
        have hno : '}' ∉ rest.takeWhile (· ≠ '}') := fun hm =>
          absurd (List.all_eq_true.mp List.all_takeWhile _ hm) (by decide)
        -- the rest goes on after the alternative, and what it goes on with is the brace
        obtain ⟨t, ht⟩ : ∃ t, rest.dropWhile (· ≠ '}') = '}' :: t := by
          have hstarts := List.head?_dropWhile_not (· ≠ '}') rest
          cases hd : rest.dropWhile (· ≠ '}') with
          | nil =>
            rw [hd, List.append_nil] at halt
            rw [halt] at hno
            exact absurd (by simpa using hclose) hno
          | cons d t =>
            rw [hd] at hstarts
            obtain rfl : d = '}' := by simpa using hstarts
            exact ⟨t, rfl⟩
        rw [ht] at halt
        generalize rest.takeWhile (· ≠ '}') = alt at h halt hno
        split at h
        · rename_i hc
          obtain rfl : Piece.orElse name alt = p := Option.some.inj h
          exact ⟨.orElse hn hno, t, by simp [Piece.source, ← hsplit, ← halt, hc]⟩
        · split at h
          · rename_i hc
            obtain rfl : Piece.ifSet name alt = p := Option.some.inj h
            exact ⟨.ifSet hn hno, t, by simp [Piece.source, ← hsplit, ← halt, hc]⟩
          · exact absurd h (by simp)
      · exact absurd h (by simp)
    · exact absurd h (by simp)
  · exact absurd h (by simp)

/-- The token that is found is the one that the text begins with. -/
theorem token?_eq_some_iff {s : List Char} {p : Piece} :
    token? s = some p ↔ IsToken p ∧ ∃ t, s = p.source ++ t := by
  constructor
  · intro h
    unfold token? at h
    split at h
    · rename_i t
      obtain rfl : Piece.dollar = p := Option.some.inj h
      exact ⟨.dollar, t, rfl⟩
    · exact isToken_of_placeholder? h
    · exact absurd h (by simp)
  · rintro ⟨hp, t, rfl⟩
    have hbody : ∀ {body}, p.source = '$' :: '{' :: body → token? (p.source ++ t) = some p := by
      intro body hbody
      rw [hbody]
      exact placeholder?_of_isToken hp hbody
    cases hp with
    | dollar => rfl
    | value hn => exact hbody rfl
    | orElse hn ha => exact hbody rfl
    | ifSet hn ha => exact hbody rfl

/-! ## Readings -/

/-- The pieces of a text from left to right: a token where one starts, and where none does one
character that stands for itself. -/
inductive Reads : List Char → List Piece → Prop where
  | nil : Reads [] []
  | token {p : Piece} {rest : List Char} {ps : List Piece} (isToken : IsToken p)
    (others : Reads rest ps) : Reads (p.source ++ rest) (p :: ps)
  | char {c : Char} {rest : List Char} {ps : List Piece}
    (noToken : ∀ p, IsToken p → ¬ p.source <+: c :: rest) (others : Reads rest ps) :
    Reads (c :: rest) (.char c :: ps)

theorem pieces_of_token? {c : Char} {rest : List Char} {p : Piece}
    (h : token? (c :: rest) = some p) :
    pieces (c :: rest) = p :: pieces (rest.drop (p.width - 1)) := by
  rw [pieces, piecesFrom, h, pieces]
  exact congrArg (p :: ·) (piecesFrom_eq_drop _ _)

theorem pieces_of_no_token {c : Char} {rest : List Char} (h : token? (c :: rest) = none) :
    pieces (c :: rest) = .char c :: pieces rest := by
  rw [pieces, piecesFrom, h, pieces]

theorem pieces_source_append {p : Piece} (hp : IsToken p) (rest : List Char) :
    pieces (p.source ++ rest) = p :: pieces rest := by
  have hfound := token?_eq_some_iff.mpr ⟨hp, rest, rfl⟩
  have hlength : p.width = p.source.length := rfl
  have hpos := p.width_pos
  cases hs : p.source with
  | nil =>
    rw [hs] at hlength
    exact absurd hlength (Nat.ne_of_gt hpos)
  | cons c source =>
    rw [hs, List.cons_append] at hfound
    rw [hs] at hlength
    rw [List.cons_append, pieces_of_token? hfound, hlength, List.length_cons, Nat.add_sub_cancel,
      List.drop_left]

theorem token?_eq_none_iff {s : List Char} :
    token? s = none ↔ ∀ p, IsToken p → ¬ p.source <+: s := by
  rw [Option.eq_none_iff_forall_ne_some]
  refine forall_congr' fun p => ⟨fun h hp ⟨t, ht⟩ => ?_, fun h hfound => ?_⟩
  · exact h (token?_eq_some_iff.mpr ⟨hp, t, ht.symm⟩)
  · obtain ⟨hp, t, ht⟩ := token?_eq_some_iff.mp hfound
    exact h hp ⟨t, ht.symm⟩

theorem reads_pieces (s : List Char) : Reads s (pieces s) := by
  induction hn : s.length using Nat.strongRecOn generalizing s with
  | ind n ih =>
    subst hn
    cases s with
    | nil => exact .nil
    | cons c rest =>
      cases h : token? (c :: rest) with
      | none =>
        rw [pieces_of_no_token h]
        exact .char (token?_eq_none_iff.mp h) (ih _ (Nat.lt_succ_self _) rest rfl)
      | some p =>
        obtain ⟨hp, t, ht⟩ := token?_eq_some_iff.mp h
        have hlength := congrArg List.length ht
        have hpos : 0 < p.source.length := p.width_pos
        rw [List.length_append] at hlength
        rw [ht, pieces_source_append hp]
        exact .token hp (ih _ (by omega) t rfl)

/-- Every text has one reading. -/
theorem reads_iff {s : List Char} {ps : List Piece} : Reads s ps ↔ ps = pieces s := by
  constructor
  · intro h
    induction h with
    | nil => rfl
    | token hp _ ih => rw [pieces_source_append hp, ← ih]
    | char hno _ ih => rw [pieces_of_no_token (token?_eq_none_iff.mpr hno), ← ih]
  · rintro rfl
    exact reads_pieces s

/-- A text in which no token stands is read as its characters. -/
theorem pieces_of_no_infix {s : List Char} (h : ∀ p, IsToken p → ¬ p.source <:+: s) :
    pieces s = s.map .char := by
  induction s with
  | nil => rfl
  | cons c rest ih =>
    have hno : token? (c :: rest) = none :=
      token?_eq_none_iff.mpr fun p hp hfront => h p hp hfront.isInfix
    rw [pieces_of_no_token hno, List.map_cons,
      ih fun p hp hin => h p hp (hin.trans (List.suffix_cons c rest).isInfix)]

/-- Dollar signs are taken in twos, so after an even number of them a brace opens nothing. -/
theorem pieces_dollars_brace (n : Nat) (rest : List Char) :
    pieces (List.replicate (2 * n) '$' ++ '{' :: rest) =
      List.replicate n .dollar ++ .char '{' :: pieces rest := by
  induction n with
  | zero => exact pieces_of_no_token rfl
  | succ n ih =>
    have hlist : List.replicate (2 * (n + 1)) '$' ++ '{' :: rest =
        Piece.dollar.source ++ (List.replicate (2 * n) '$' ++ '{' :: rest) := rfl
    rw [hlist, pieces_source_append .dollar, ih]
    rfl

/-! ## Meaning -/

namespace Piece

/-- The value of a variable, empty if it is not set. -/
def valueOf (b : Bindings) (name : List Char) : List Char :=
  ((b.get? (String.ofList name)).getD "").toList

/-- The text that a piece stands for. -/
def meaning (b : Bindings) : Piece → List Char
  | char c => [c]
  | dollar => ['$']
  | value name => valueOf b name
  | orElse name alt => if valueOf b name = [] then alt else valueOf b name
  | ifSet name alt => if valueOf b name = [] then [] else alt

/-- The name that must be set for the piece to have a meaning. -/
def required? : Piece → Option String
  | value name => some (String.ofList name)
  | _ => none

theorem expand_of_required {b : Bindings} {p : Piece} {name : String}
    (h : p.required? = some name) :
    p.expand b = if (b.get? name).isSome then .ok (p.meaning b) else .error name := by
  cases p with
  | value n =>
    obtain rfl : String.ofList n = name := Option.some.inj h
    rw [expand, meaning, valueOf]
    cases b.get? (String.ofList n) <;> rfl
  | char c => exact absurd h (by simp [required?])
  | dollar => exact absurd h (by simp [required?])
  | orElse n alt => exact absurd h (by simp [required?])
  | ifSet n alt => exact absurd h (by simp [required?])

theorem expand_of_not_required {b : Bindings} {p : Piece} (h : p.required? = none) :
    p.expand b = .ok (p.meaning b) := by
  cases p with
  | char c => rfl
  | dollar => rfl
  | value n => exact absurd h (by simp [required?])
  | orElse n alt =>
    rw [expand, meaning, valueOf]
    cases b.get? (String.ofList n) with
    | none => rfl
    | some v => simp
  | ifSet n alt =>
    rw [expand, meaning, valueOf]
    cases b.get? (String.ofList n) with
    | none => rfl
    | some v => simp

end Piece

variable {b : Bindings} {ps : List Piece}

/-- Where all names that are needed are set, every piece gives way to what it stands for. -/
theorem expandPieces_of_bound
    (h : ∀ name ∈ ps.filterMap Piece.required?, (b.get? name).isSome = true) :
    expandPieces b ps = .ok (ps.flatMap (Piece.meaning b)) := by
  induction ps with
  | nil => rfl
  | cons p ps ih =>
    have hp : p.expand b = .ok (p.meaning b) := by
      cases hr : p.required? with
      | none => exact Piece.expand_of_not_required hr
      | some name =>
        rw [Piece.expand_of_required hr, if_pos (h name (by simp [hr]))]
    have hps := ih fun name hn => h name (by
      rw [List.filterMap_cons]
      cases p.required? <;> simp [hn])
    rw [expandPieces, hp, hps]
    rfl

/-- The first name that is needed and not set is the failure. -/
theorem expandPieces_of_unbound {before after : List String} {name : String}
    (hps : ps.filterMap Piece.required? = before ++ name :: after)
    (hbefore : ∀ n ∈ before, (b.get? n).isSome = true) (hname : b.get? name = none) :
    expandPieces b ps = .error name := by
  induction ps generalizing before with
  | nil => simp at hps
  | cons p ps ih =>
    rw [expandPieces]
    cases hr : p.required? with
    | none =>
      rw [List.filterMap_cons, hr] at hps
      rw [Piece.expand_of_not_required hr, ih hps hbefore]
      rfl
    | some n =>
      rw [List.filterMap_cons, hr] at hps
      rw [Piece.expand_of_required hr]
      cases before with
      | nil =>
        obtain ⟨rfl, -⟩ := List.cons.inj hps
        rw [hname]
        rfl
      | cons m before =>
        obtain ⟨rfl, hrest⟩ := List.cons.inj hps
        rw [List.forall_mem_cons] at hbefore
        rw [if_pos hbefore.1, ih hrest hbefore.2]
        rfl

/-- The first name that is needed and not set decides between the two outcomes. -/
theorem expandPieces_eq (b : Bindings) (ps : List Piece) :
    expandPieces b ps =
      match (ps.filterMap Piece.required?).find? (fun name => (b.get? name).isNone) with
      | none => .ok (ps.flatMap (Piece.meaning b))
      | some name => .error name := by
  cases h : (ps.filterMap Piece.required?).find? (fun name => (b.get? name).isNone) with
  | none =>
    refine expandPieces_of_bound fun name hname => ?_
    simpa [Option.isSome_iff_ne_none] using List.find?_eq_none.mp h name hname
  | some name =>
    obtain ⟨hunset, before, after, hps, hbefore⟩ := List.find?_eq_some_iff_append.mp h
    refine expandPieces_of_unbound hps (fun n hn => ?_) (Option.isNone_iff_eq_none.mp hunset)
    simpa using hbefore n hn

/-- A template has one reading, and what it comes to is decided by that. If each name that a plain
placeholder needs is set, the pieces give way to what they stand for, one after the other; otherwise
the first of the names that are missing is the failure. A template without a token comes to itself, and
a brace after an even number of dollar signs is read as itself. -/
theorem interpolate_eq_meaning (template : String) :
    ∃ ps, (∀ qs, Reads template.toList qs ↔ qs = ps) ∧
      (∀ b, interpolate template b =
        match (ps.filterMap Piece.required?).find? (fun name => (b.get? name).isNone) with
        | none => .ok (String.ofList (ps.flatMap (Piece.meaning b)))
        | some name => .error name) ∧
      ((∀ p, IsToken p → ¬ p.source <:+: template.toList) →
        ∀ b, interpolate template b = .ok template) ∧
      ∀ n rest, template.toList = List.replicate (2 * n) '$' ++ '{' :: rest →
        ∃ qs, Reads rest qs ∧ ps = List.replicate n .dollar ++ .char '{' :: qs := by
  refine ⟨pieces template.toList, fun qs => reads_iff, fun b => ?_, fun hno b => ?_, ?_⟩
  · rw [interpolate, expandPieces_eq]
    split <;> rfl
  · have hchars := pieces_of_no_infix hno
    have hneeded : (pieces template.toList).filterMap Piece.required? = [] := by
      rw [hchars, List.filterMap_map]
      exact List.filterMap_eq_nil_iff.mpr fun _ _ => rfl
    have hmeaning : (pieces template.toList).flatMap (Piece.meaning b) = template.toList := by
      rw [hchars, List.flatMap_map]
      exact List.flatMap_singleton' _
    rw [interpolate, expandPieces_of_bound (by simp [hneeded]), hmeaning]
    exact congrArg Except.ok String.ofList_toList
  · intro n rest htemplate
    exact ⟨pieces rest, reads_pieces rest, by rw [htemplate, pieces_dollars_brace]⟩

/-- A value that looks like a placeholder, an alternative in which another one begins, a brace after
two dollar signs and a placeholder without a name; the same template without variables; a dollar sign
on its own, and two of them before braces. -/
theorem interpolate_eq_meaning_of_overlaps :
    let template := "${A}-${B:-${C}}$${A}${1}"
    interpolate template [("A", "${B}"), ("B", "")] = .ok "${B}-${C}${A}${1}" ∧
      interpolate template [] = .error "A" ∧
      (∀ b, interpolate "a $ {b}" b = .ok "a $ {b}") ∧
      ∃ ps qs, Reads ['}'] qs ∧ Reads "$${}".toList ps ∧ ps = .dollar :: .char '{' :: qs := by
  intro template
  obtain ⟨ps, hps, hmeaning, -, -⟩ := interpolate_eq_meaning template
  obtain ⟨-, -, -, hself, -⟩ := interpolate_eq_meaning "a $ {b}"
  obtain ⟨rs, hrs, -, -, hbrace⟩ := interpolate_eq_meaning "$${}"
  have hpieces : pieces template.toList =
      [.value ['A'], .char '-', .orElse ['B'] ['$', '{', 'C'], .char '}', .dollar, .char '{',
        .char 'A', .char '}', .char '$', .char '{', .char '1', .char '}'] := by
    decide +kernel
  obtain rfl : _ = ps := (hps _).mp (hpieces ▸ reads_pieces _)
  refine ⟨?_, ?_, hself ?_, ?_⟩
  · rw [hmeaning [("A", "${B}"), ("B", "")]]
    exact congrArg Except.ok (by decide +kernel)
  · rw [hmeaning []]
    rfl
  · rintro p hp ⟨front, back, hinfix⟩
    have hnone : ∀ k, k < 8 → token? ("a $ {b}".toList.drop k) = none := by decide
    have hlength : front.length < 8 := by
      have hsum : front.length + p.source.length + back.length = 7 := by
        rw [← List.length_append, ← List.length_append, hinfix]
        rfl
      omega
    have hfound := hnone _ hlength
    rw [← hinfix, List.append_assoc, List.drop_left,
      token?_eq_some_iff.mpr ⟨hp, back, rfl⟩] at hfound
    exact absurd hfound (by simp)
  · obtain ⟨qs, hqs, heq⟩ := hbrace 1 ['}'] rfl
    exact ⟨rs, qs, hqs, (hrs rs).mpr rfl, heq⟩

end Interpolation
end DbImage
