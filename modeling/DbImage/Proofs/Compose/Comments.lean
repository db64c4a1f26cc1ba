import DbImage.Proofs.Compose.Layout
import DbImage.Proofs.Number.Visible

/-!
# Conditions as comments

A condition stands behind the sign of a comment, and its message is written as it is.  A message with
a line end therefore goes on in a line of its own, which is a comment only if the next character makes
it one.  `contentLines_render_iff` says exactly when the conditions leave all other lines as they are.
-/

namespace DbImage

open Text (isVisible)

namespace Readiness

/-- The message that the one-line form shows, if it shows one. -/
def shownMessage? (r : Readiness) : Option String :=
  match r.kind with
  | .stdoutMessage | .stderrMessage => some r.messageText
  | _ => none

end Readiness

namespace Compose

/-- A notion of where lines end: at the line feed, and else at most at characters that are no visible
ASCII. -/
structure EndsLines (ends : Char → Bool) : Prop where
  feed : ends '\n' = true
  invisible : ∀ c, isVisible c = true → ends c = false

def isContent (l : List Char) : Bool :=
  l.head? ≠ some '#'

/-- The lines of a text that are no comments. -/
def contentLines (ends : Char → Bool) (text : List Char) : List (List Char) :=
  (text.splitOnP ends).filter isContent

/-- The lines that are no comments among those after the first. -/
def furtherContent (ends : Char → Bool) (text : List Char) : List (List Char) :=
  (text.splitOnP ends).tail.filter isContent

/-- The lines that the message of a condition adds to the content of a file.  The quote after the
message belongs to its last line. -/
def spilled (ends : Char → Bool) (r : Readiness) : List (List Char) :=
  match r.shownMessage? with
  | some m => furtherContent ends (m.toList ++ ['"'])
  | none => []

/-- Each line end is directly followed by the sign of a comment. -/
def StaysComment (ends : Char → Bool) : List Char → Prop
  | [] => True
  | c :: rest => (ends c = true → rest.head? = some '#') ∧ StaysComment ends rest

variable {ends : Char → Bool}

/-! ## Lines of a text -/

theorem EndsLines.forall_of_isVisible (he : EndsLines ends) {s : List Char}
    (hs : s.all isVisible = true) : ∀ c ∈ s, ends c = false :=
  fun c hc => he.invisible c (List.all_eq_true.mp hs c hc)

theorem contentLines_append_feed (he : EndsLines ends) (s t : List Char) :
    contentLines ends (s ++ '\n' :: t) = contentLines ends s ++ contentLines ends t := by
  rw [contentLines, List.splitOnP_append_cons s t he.feed, List.filter_append]
  rfl

/-- After the last line end there is one more line, which is empty. -/
theorem contentLines_unlines (he : EndsLines ends) (ls : List String) :
    contentLines ends (unlines ls).toList =
      ls.flatMap (fun l => contentLines ends l.toList) ++ [[]] := by
  induction ls with
  | nil => rfl
  | cons l ls ih =>
    have hlist : (unlines (l :: ls)).toList = l.toList ++ '\n' :: (unlines ls).toList := by
      rw [unlines_cons, line, String.toList_append, String.toList_append, List.append_assoc]
      rfl
    rw [hlist, contentLines_append_feed he, ih, List.flatMap_cons, List.append_assoc]

/-- Characters that end no line belong to the first line of what follows them. -/
theorem splitOnP_append_of_forall {p : List Char} (hp : ∀ c ∈ p, ends c = false) (s : List Char) :
    (p ++ s).splitOnP ends = (s.splitOnP ends).modifyHead (p ++ ·) := by
  induction p with
  | nil => exact (congrFun List.modifyHead_id _).symm
  | cons c p ih =>
    rw [List.forall_mem_cons] at hp
    rw [List.cons_append, List.splitOnP_cons_eq_if_modifyHead, hp.1, ih hp.2,
      List.modifyHead_modifyHead]
    rfl

theorem furtherContent_append_of_forall {p : List Char} (hp : ∀ c ∈ p, ends c = false)
    (s : List Char) : furtherContent ends (p ++ s) = furtherContent ends s := by
  rw [furtherContent, splitOnP_append_of_forall hp, List.tail_modifyHead]
  rfl

theorem furtherContent_of_forall {s : List Char} (hs : ∀ c ∈ s, ends c = false) :
    furtherContent ends s = [] := by
  rw [furtherContent, List.splitOnP_eq_singleton hs]
  rfl

/-- A line starts as the text does, unless the text starts with a line end. -/
theorem exists_splitOnP_eq_cons (he : EndsLines ends) (s : List Char) :
    ∃ first others, s.splitOnP ends = first :: others ∧
      (first.head? = some '#' ↔ s.head? = some '#') := by
  cases s with
  | nil => exact ⟨[], [], List.splitOnP_nil, Iff.rfl⟩
  | cons c rest =>
    rw [List.splitOnP_cons_eq_if_modifyHead]
    by_cases hc : ends c = true
    · have hne : c ≠ '#' := by
        rintro rfl
        rw [he.invisible '#' (by decide)] at hc
        cases hc
      refine ⟨[], _, if_pos hc, ?_⟩
      simp [hne]
    · obtain ⟨l, ls, hl⟩ := List.exists_cons_of_ne_nil (List.splitOnP_ne_nil ends rest)
      exact ⟨c :: l, ls, by rw [if_neg hc, hl]; rfl, Iff.rfl⟩

/-- A text that starts a comment has content in its further lines only. -/
theorem contentLines_of_comment (he : EndsLines ends) {s : List Char} (hs : s.head? = some '#') :
    contentLines ends s = furtherContent ends s := by
  obtain ⟨first, others, hsplit, hfirst⟩ := exists_splitOnP_eq_cons he s
  have hcomment : ¬ isContent first = true := by simpa [isContent] using hfirst.mpr hs
  rw [contentLines, furtherContent, hsplit, List.filter_cons_of_neg hcomment]
  rfl

/-- The further lines of a quoted message are comments if each line end in it makes them so. -/
theorem furtherContent_quoted_eq_nil_iff (he : EndsLines ends) (s : List Char) :
    furtherContent ends (s ++ ['"']) = [] ↔ StaysComment ends s := by
  induction s with
  | nil =>
    have hquote : ∀ c ∈ ['"'], ends c = false := by
      simpa using he.invisible '"' (by decide)
    exact ⟨fun _ => trivial, fun _ => furtherContent_of_forall hquote⟩
  | cons c rest ih =>
    rw [StaysComment, ← ih]
    by_cases hc : ends c = true
    · obtain ⟨first, others, hsplit, hfirst⟩ := exists_splitOnP_eq_cons he (rest ++ ['"'])
      have hhead : first.head? = some '#' ↔ rest.head? = some '#' := by
        rw [hfirst]
        cases rest <;> simp
      rw [furtherContent, furtherContent, List.cons_append, List.splitOnP_cons_eq_if_modifyHead,
        if_pos hc, List.tail_cons, hsplit, List.tail_cons, ← hhead]
      simp [hc, isContent]
    · have hcons : ∀ d ∈ [c], ends d = false := by simpa using hc
      rw [← List.singleton_append, List.append_assoc, furtherContent_append_of_forall hcons]
      simp [hc]

/-! ## Conditions -/

theorem spilled_eq_nil_iff (he : EndsLines ends) (r : Readiness) :
    spilled ends r = [] ↔ ∀ m, r.shownMessage? = some m → StaysComment ends m.toList := by
  unfold spilled
  cases r.shownMessage? with
  | none => simp
  | some m => simpa using furtherContent_quoted_eq_nil_iff he m.toList

/-- Only a message can hold anything but visible ASCII. -/
theorem isVisible_describe {r : Readiness} {form : String} (hd : r.describe = .ok form)
    (hm : r.shownMessage? = none) : form.toList.all isVisible = true := by
  unfold Readiness.describe at hd
  unfold Readiness.shownMessage? at hm
  split at hd
  · simp_all
  · simp_all
  · split at hd
    · rename_i d _
      obtain rfl := Except.ok.inj hd
      rw [String.toList_append, String.toList_append, List.all_append, List.all_append,
        Number.Double.isVisible_toCompactText]
      decide
    · cases hd
  · split at hd
    · rename_i code _
      split at hd
      · cases hd
      · obtain rfl := Except.ok.inj hd
        rw [String.toList_append, List.all_append, Number.isVisible_intText]
        decide
    · obtain rfl := Except.ok.inj hd
      decide
  · obtain rfl := Except.ok.inj hd
    decide
  · obtain rfl := Except.ok.inj hd
    decide

/-- The one-line form of a condition with a message. -/
theorem describe_of_shownMessage? {r : Readiness} {form m : String} (hd : r.describe = .ok form)
    (hm : r.shownMessage? = some m) :
    ∃ stream : String, stream.toList.all isVisible = true ∧ form = stream ++ m ++ "\"" := by
  unfold Readiness.describe at hd
  unfold Readiness.shownMessage? at hm
  split at hm
  · rename_i hk
    rw [hk] at hd
    obtain rfl := Option.some.inj hm
    exact ⟨"stdout: \"", by decide, (Except.ok.inj hd).symm⟩
  · rename_i hk
    rw [hk] at hd
    obtain rfl := Option.some.inj hm
    exact ⟨"stderr: \"", by decide, (Except.ok.inj hd).symm⟩
  · cases hm

/-- The line of a condition adds to the content of a file what its message spills. -/
theorem contentLines_condition (he : EndsLines ends) {r : Readiness} {form : String}
    (hd : r.describe = .ok form) :
    contentLines ends ("#   - " ++ form).toList = spilled ends r := by
  have hmark : "#   - ".toList.all isVisible = true := by decide
  have hstart : ("#   - " ++ form).toList.head? = some '#' := by
    rw [String.toList_append]
    rfl
  rw [contentLines_of_comment he hstart, String.toList_append,
    furtherContent_append_of_forall (he.forall_of_isVisible hmark), spilled]
  cases hm : r.shownMessage? with
  | none => exact furtherContent_of_forall (he.forall_of_isVisible (isVisible_describe hd hm))
  | some m =>
    obtain ⟨stream, hstream, rfl⟩ := describe_of_shownMessage? hd hm
    rw [String.toList_append, String.toList_append, List.append_assoc,
      furtherContent_append_of_forall (he.forall_of_isVisible hstream)]
    rfl

theorem flatMap_contentLines_conditions (he : EndsLines ends) {rs : List Readiness}
    {forms : List String} (hd : rs.map Readiness.describe = forms.map .ok) :
    (forms.map fun f => "#   - " ++ f).flatMap (fun l => contentLines ends l.toList) =
      rs.flatMap (spilled ends) := by
  induction rs generalizing forms with
  | nil =>
    obtain rfl : forms = [] := by simpa using hd.symm
    rfl
  | cons r rs ih =>
    cases forms with
    | nil => simp at hd
    | cons f forms =>
      rw [List.map_cons, List.map_cons, List.cons.injEq] at hd
      rw [List.map_cons, List.flatMap_cons, List.flatMap_cons, ih hd.2,
        contentLines_condition he hd.1]

/-! ## The whole file -/

/-- What stands before and after the conditions does not depend on them. -/
theorem exists_contentLines_render (he : EndsLines ends) (c : Contract) (service : String)
    (mounts : List Mount) :
    ∃ front back, ∀ ready : List Readiness, (∀ r ∈ ready, ∃ form, r.describe = .ok form) →
      ∃ text, render { c with ready := ready } service mounts = .ok text ∧
        contentLines ends text.toList = front ++ (ready.flatMap (spilled ends) ++ back) := by
  let title := ["# Generated by tcimages from " ++ c.imageRef, "# Ready when:"]
  let body := Layout.service service c.imageRef ++ Layout.environment (sortedByName c.env)
    ++ Layout.command c.command ++ Layout.volumes mounts
  refine ⟨title.flatMap fun l => contentLines ends l.toList,
    body.flatMap (fun l => contentLines ends l.toList) ++ [[]], fun ready h => ?_⟩
  obtain ⟨forms, hforms⟩ := exists_describeAll h
  have hrender : render { c with ready := ready } service mounts =
      .ok (unlines (title ++ (forms.map (fun f => "#   - " ++ f) ++ body))) := by
    have hheader : title ++ (forms.map (fun f => "#   - " ++ f) ++ body) =
        Layout.header c.imageRef forms ++ body := rfl
    rw [render, hforms, hheader]
    simp only [bind, Except.bind, pure, Except.pure, body, unlines_append, header_eq_unlines,
      environmentLines_eq_unlines, commandLine_eq_unlines, volumeLines_eq_unlines]
    rw [Layout.service, unlines_cons, unlines_cons, unlines_cons, unlines_nil, String.append_empty]
    simp only [String.append_assoc]
    rfl
  refine ⟨_, hrender, ?_⟩
  rw [contentLines_unlines he, List.flatMap_append, List.flatMap_append,
    flatMap_contentLines_conditions he (describeAll_eq_ok.mp hforms), List.append_assoc,
    List.append_assoc]

/-- Two images that differ in their conditions alone have the same content in their compose files
exactly if their messages spill the same lines, and a message spills nothing exactly if each line end
in it is followed by the sign of a comment. -/
theorem contentLines_render_iff (he : EndsLines ends) (c : Contract) (ready : List Readiness)
    (service : String) (mounts : List Mount) (h : ∀ r ∈ c.ready, ∃ form, r.describe = .ok form)
    (h' : ∀ r ∈ ready, ∃ form, r.describe = .ok form) :
    (∃ text text', render c service mounts = .ok text ∧
      render { c with ready := ready } service mounts = .ok text' ∧
      (contentLines ends text.toList = contentLines ends text'.toList ↔
        c.ready.flatMap (spilled ends) = ready.flatMap (spilled ends))) ∧
    ∀ r, spilled ends r = [] ↔ ∀ m, r.shownMessage? = some m → StaysComment ends m.toList := by
  obtain ⟨front, back, hrender⟩ := exists_contentLines_render he c service mounts
  obtain ⟨text, htext, hlines⟩ := hrender c.ready h
  obtain ⟨text', htext', hlines'⟩ := hrender ready h'
  refine ⟨⟨text, text', htext, htext', ?_⟩, spilled_eq_nil_iff he⟩
  rw [hlines, hlines', List.append_cancel_left_eq, List.append_cancel_right_eq]

/-- A message of two lines of which the second is a comment, and conditions without a message, where
lines end as they do for a reader of the file's format. -/
theorem contentLines_render_iff_of_comment :
    let ends : Char → Bool := fun c => ['\n', '\r', '\u0085', '\u2028', '\u2029'].contains c
    let c : Contract := ⟨"db", "1", [.onStderr "up\n# or nearly so"], [("A", "1")], [], []⟩
    let ready : List Readiness := [.ofKind .healthcheck, ⟨.exit, none, none, some 1⟩]
    EndsLines ends ∧ (∀ r ∈ c.ready, ∃ form, r.describe = .ok form) ∧
      (∀ r ∈ ready, ∃ form, r.describe = .ok form) ∧
      ∃ text text', render c "db" [] = .ok text ∧
        render { c with ready := ready } "db" [] = .ok text' ∧
        contentLines ends text.toList = contentLines ends text'.toList := by
  intro ends c ready
  have he : EndsLines ends := by
    refine ⟨rfl, fun d hd => ?_⟩
    refine Bool.eq_false_iff.mpr fun hends => ?_
    simp only [ends, List.contains_iff_mem, List.mem_cons, List.not_mem_nil, or_false] at hends
    rcases hends with rfl | rfl | rfl | rfl | rfl <;> revert hd <;> decide
  have h : ∀ r ∈ c.ready, ∃ form, r.describe = .ok form := by
    intro r hr
    obtain rfl := List.mem_singleton.mp hr
    exact ⟨_, rfl⟩
  have h' : ∀ r ∈ ready, ∃ form, r.describe = .ok form := by
    intro r hr
    simp only [ready, List.mem_cons, List.not_mem_nil, or_false] at hr
    rcases hr with rfl | rfl <;> exact ⟨_, rfl⟩
  obtain ⟨⟨text, text', htext, htext', hlines⟩, -⟩ := contentLines_render_iff he c ready "db" [] h h'
  exact ⟨he, h, h', text, text', htext, htext', hlines.mpr (by decide)⟩

/-- A message whose second line gives the whole file a name. -/
theorem message_adds_content :
    let c : Contract := ⟨"db", "1", [.onStdout "up\nname: \"other"], [], [], []⟩
    ∃ text text', render c "db" [] = .ok text ∧ render { c with ready := [] } "db" [] = .ok text' ∧
      "name: \"other\"".toList ∈ contentLines (· == '\n') text.toList ∧
      "name: \"other\"".toList ∉ contentLines (· == '\n') text'.toList := by
  intro c
  refine ⟨_, _, rfl, rfl, ?_, ?_⟩
  · decide +kernel
  · decide +kernel

end Compose
end DbImage
