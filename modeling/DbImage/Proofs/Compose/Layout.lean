import DbImage.Proofs.Compose.Escape
import DbImage.Proofs.Sorting
import DbImage.Proofs.Text.JsonString

/-!
# The layout of a compose file

A compose file is a list of lines: a header with the conditions, the service and its image, and up to
three sections, each there exactly if it has something to say.  `Layout` lists the lines; the values
among them stand in quotes, and `Faithful` says what makes quotes safe: the piece stays on its line,
and undoing first the quotes and then the doubled dollar signs gives the value back.
-/

namespace DbImage
namespace Compose

open Text (isVisible jsonDecode? lowercase)

/-- Lines as one text, each with its end. -/
def unlines (ls : List String) : String :=
  String.join (ls.map (· ++ "\n"))

/-- `sorted` has the variables of `env` in the order of their names in lower case.  Names that agree
in lower case keep the order they had. -/
structure ByLowerName (env sorted : Bindings) : Prop where
  perm : sorted.Perm env
  ordered : sorted.Pairwise fun p q => lowercase p.1 ≤ lowercase q.1
  stable : ∀ key, sorted.filter (fun p => lowercase p.1 = key) =
    env.filter fun p => lowercase p.1 = key

namespace Layout

def header (imageRef : String) (conditions : List String) : List String :=
  ("# Generated by tcimages from " ++ imageRef) :: "# Ready when:"
    :: conditions.map fun c => "#   - " ++ c

def service (name imageRef : String) : List String :=
  ["services:", "  " ++ name ++ ":", "    image: " ++ Text.embedded imageRef]

/-- `env` is in the order in which the file is to have it. -/
def environment (env : Bindings) : List String :=
  if env = [] then []
  else "    environment:" :: env.map fun p => "      " ++ p.1 ++ ": " ++ quote p.2

def command (tokens : List String) : List String :=
  if tokens = [] then []
  else ["    command: [" ++ ", ".intercalate (tokens.map quote) ++ "]"]

def volumes (mounts : List Mount) : List String :=
  if mounts = [] then []
  else "    volumes:" :: mounts.map fun m => "      - " ++ quote (m.host ++ ":" ++ m.target ++ ":ro")

end Layout

/-- The quoted piece of a value stays on its line and means the value. -/
structure Faithful (value : String) : Prop where
  visible : (quote value).toList.all isVisible = true
  decode : jsonDecode? (quote value) = some (escape value)
  interpolate : ∀ b, Interpolation.interpolate (escape value) b = .ok value

theorem faithful (value : String) : Faithful value :=
  ⟨Text.isVisible_embedded _, Text.jsonDecode?_embedded _, interpolate_escape value⟩

/-! ## Order of the variables -/

theorem byLowerName_sortedByName (env : Bindings) : ByLowerName env (sortedByName env) := by
  let key := fun p : String × String => lowercase p.1
  exact ⟨List.mergeSort_perm _ _, pairwise_key_le key env, filter_key_mergeSort key env⟩

/-! ## Lines -/

@[simp]
theorem unlines_nil : unlines [] = "" := rfl

theorem unlines_cons (l : String) (ls : List String) : unlines (l :: ls) = line l ++ unlines ls := by
  rw [unlines, List.map_cons, String.join_cons]
  rfl

theorem unlines_append (ls ms : List String) : unlines (ls ++ ms) = unlines ls ++ unlines ms := by
  rw [unlines, List.map_append, String.join_append]
  rfl

theorem header_eq_unlines (imageRef : String) (conditions : List String) :
    header imageRef conditions = unlines (Layout.header imageRef conditions) := by
  rw [Layout.header, unlines_cons, unlines_cons, header, unlines, List.map_map, String.append_assoc]
  rfl

theorem lines_eq_unlines {α : Type} (heading : String) (entry : α → String) (entries : List α) :
    lines heading entry entries =
      unlines (if entries.isEmpty then [] else heading :: entries.map entry) := by
  unfold lines
  split
  · rfl
  · rw [unlines_cons, unlines, List.map_map]
    rfl

theorem environmentLines_eq_unlines (env : Bindings) :
    environmentLines env = unlines (Layout.environment (sortedByName env)) := by
  rw [environmentLines, lines_eq_unlines, Layout.environment]
  simp only [List.isEmpty_iff]

theorem commandLine_eq_unlines (tokens : List String) :
    commandLine tokens = unlines (Layout.command tokens) := by
  rw [commandLine, Layout.command]
  simp only [List.isEmpty_iff]
  split
  · rfl
  · rw [unlines_cons, unlines_nil, String.append_empty]

theorem volumeLines_eq_unlines (mounts : List Mount) :
    volumeLines mounts = unlines (Layout.volumes mounts) := by
  rw [volumeLines, lines_eq_unlines, Layout.volumes]
  simp only [List.isEmpty_iff]
  rfl

/-! ## The whole file -/

/-- All conditions have a one-line form exactly if each of them has. -/
theorem describeAll_eq_ok {rs : List Readiness} {ls : List String} :
    describeAll rs = .ok ls ↔ rs.map Readiness.describe = ls.map .ok := by
  induction rs generalizing ls with
  | nil =>
    cases ls with
    | nil => exact ⟨fun _ => rfl, fun _ => rfl⟩
    | cons l ls => simp [describeAll]
  | cons r rs ih =>
    rw [describeAll, List.map_cons]
    cases hr : r.describe with
    | error e => cases ls <;> simp [bind, Except.bind]
    | ok l =>
      cases hrs : describeAll rs with
      | error e =>
        cases ls with
        | nil => simp [bind, Except.bind]
        | cons l' ls =>
          have : ¬ rs.map Readiness.describe = ls.map .ok := fun h => by
            rw [ih.mpr h] at hrs
            cases hrs
          simp [bind, Except.bind, this]
      | ok ls' =>
        cases ls with
        | nil => simp [bind, Except.bind, pure, Except.pure]
        | cons l' ls =>
          have : rs.map Readiness.describe = ls.map .ok ↔ ls' = ls := by
            rw [← ih, hrs, Except.ok.injEq]
          simp [bind, Except.bind, pure, Except.pure, this]

theorem exists_describeAll {rs : List Readiness} (h : ∀ r ∈ rs, ∃ l, r.describe = .ok l) :
    ∃ ls, describeAll rs = .ok ls := by
  induction rs with
  | nil => exact ⟨[], rfl⟩
  | cons r rs ih =>
    obtain ⟨l, hl⟩ := h r List.mem_cons_self
    obtain ⟨ls, hls⟩ := ih fun r' hr' => h r' (List.mem_cons_of_mem r hr')
    exact ⟨l :: ls, by simp [describeAll, hl, hls, bind, Except.bind, pure, Except.pure]⟩

theorem render_eq_map_unlines (c : Contract) (service : String) (mounts : List Mount) :
    render c service mounts = (describeAll c.ready).map fun conditions => unlines
      (Layout.header c.imageRef conditions ++ Layout.service service c.imageRef
        ++ Layout.environment (sortedByName c.env) ++ Layout.command c.command
        ++ Layout.volumes mounts) := by
  rw [render]
  cases describeAll c.ready with
  | error e => rfl
  | ok conditions =>
    simp only [bind, Except.bind, pure, Except.pure, Except.map, unlines_append, header_eq_unlines,
      environmentLines_eq_unlines, commandLine_eq_unlines, volumeLines_eq_unlines]
    rw [Layout.service, unlines_cons, unlines_cons, unlines_cons, unlines_nil, String.append_empty]
    simp only [String.append_assoc]

/-- Where each condition has its one-line form, the file is the lines of its layout, and whatever
value stands in quotes there is faithful. -/
theorem render_eq_layout (c : Contract) (service : String) (mounts : List Mount)
    (h : ∀ r ∈ c.ready, ∃ l, r.describe = .ok l) :
    (∃ conditions env,
      c.ready.map Readiness.describe = conditions.map .ok ∧ ByLowerName c.env env ∧
      render c service mounts = .ok (unlines
        (Layout.header c.imageRef conditions ++ Layout.service service c.imageRef
          ++ Layout.environment env ++ Layout.command c.command ++ Layout.volumes mounts))) ∧
    ∀ value, Faithful value := by
  obtain ⟨conditions, hc⟩ := exists_describeAll h
  refine ⟨⟨conditions, sortedByName c.env, describeAll_eq_ok.mp hc,
    byLowerName_sortedByName c.env, ?_⟩, faithful⟩
  rw [render_eq_map_unlines, hc]
  rfl

/-- An image whose values hold dollar signs, line ends and letters beyond ASCII. -/
theorem render_eq_layout_of_dollars :
    let c : Contract := ⟨"db", "1", [.onStdout "up"],
      [("b", "$\x7bA\x7d"), ("B", "two\nlines"), ("A", "é😀")], [], ["$$", "\"'<"]⟩
    (∀ r ∈ c.ready, ∃ l, r.describe = .ok l) ∧
    ∃ conditions env,
      c.ready.map Readiness.describe = conditions.map .ok ∧ ByLowerName c.env env ∧
      render c "db" [⟨"./a", "/b$"⟩] = .ok (unlines
        (Layout.header c.imageRef conditions ++ Layout.service "db" c.imageRef
          ++ Layout.environment env ++ Layout.command c.command
          ++ Layout.volumes [⟨"./a", "/b$"⟩])) := by
  intro c
  have h : ∀ r ∈ c.ready, ∃ l, r.describe = .ok l := by
    intro r hr
    rw [List.mem_singleton.mp hr]
    exact ⟨_, rfl⟩
  exact ⟨h, (render_eq_layout c "db" [⟨"./a", "/b$"⟩] h).1⟩

end Compose
end DbImage
