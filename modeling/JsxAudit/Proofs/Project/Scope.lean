import JsxAudit.Proofs.Project.Selection
import JsxAudit.Proofs.Storage.Places

/-!
What a target selects.

A file at or below a target is wanted if its path as seen from there is included and not excluded
(`Wanted`). Just the wanted files are selected, unless the target is a file that is both included
and excluded by its name: what is excluded does not matter to a file that is named itself
(`select_wanted`).
-/

namespace JsxAudit.Project

open Data Storage Text

variable {d : Disk} {directory target root path relative : String} {included excluded : List String}

/-! ### Patterns that are texts -/

theorem matchesSome_texts (path : String) (patterns : List String) :
    matchesSome path (patterns.map Value.str) = .ok (Glob.matchesAny path patterns) := by
  induction patterns with
  | nil => rfl
  | cons pattern rest ih =>
    have first : Glob.matchesAny path (pattern :: rest) =
        (Glob.matchesPattern path pattern || Glob.matchesAny path rest) := rfl
    rw [List.map_cons, matchesSome, ih, first]
    cases Glob.matchesPattern path pattern <;> rfl

theorem isSelected_texts (included excluded : List String) (path : String) :
    isSelected (included.map Value.str) (excluded.map Value.str) path =
      .ok (Glob.matchesAny path included && !Glob.matchesAny path excluded) := by
  unfold isSelected
  rw [matchesSome_texts, matchesSome_texts]
  cases Glob.matchesAny path included <;> rfl

/-! ### Paths as seen from a target -/

/-- What is seen of a path from a root: the segments behind those of the root, or the name of the
root itself. -/
def SeenFrom (root path relative : String) : Prop :=
  ∃ behind, pathSegments path = pathSegments root ++ behind ∧
    relative = if behind = [] then pathName path else "/".intercalate behind

/-- A file at or below the root that is included and not excluded. -/
structure Wanted (d : Disk) (root : String) (included excluded : List String) (path : String) :
    Prop where
  file : (d.fileAt? path).isSome
  chosen : ∃ relative, SeenFrom root path relative ∧
    Glob.matchesAny relative included = true ∧ Glob.matchesAny relative excluded = false

theorem exists_segments (directory target : String) :
    ∃ segments, (∀ s ∈ segments, IsSegment s) ∧
      Path.resolve directory target = Path.ofSegments segments := by
  refine ⟨_, fun s mem => ?_, rfl⟩
  rw [Disk.normalSegments_eq] at mem
  rcases Disk.mem_foldl_stepTo mem with mem | ⟨mem, -⟩
  · cases mem
  · exact isSegment_of_mem mem

theorem seenFrom_self : SeenFrom root root relative ↔ relative = pathName root := by
  constructor
  · rintro ⟨behind, segments, rfl⟩
    have none : behind = [] := List.self_eq_append_right.mp segments
    rw [if_pos none]
  · rintro rfl
    exact ⟨[], (List.append_nil _).symm, (if_pos rfl).symm⟩

/-- Another file is seen from a target as the selection sees it. -/
theorem seenFrom_iff (tree : d.IsTree) (file : (d.fileAt? path).isSome)
    (ne : path ≠ Path.resolve directory target) :
    SeenFrom (Path.resolve directory target) path relative ↔
      Path.below? (Path.resolve directory target) path = some relative := by
  obtain ⟨segments, place, rfl⟩ := tree.exists_isPlace file
  obtain ⟨front, normal, eq⟩ := exists_segments directory target
  rw [eq] at ne ⊢
  have segs : ∀ s ∈ segments, IsSegment s := fun s mem => (place.segment s mem).1
  have other : segments ≠ front := fun same => ne (congrArg _ same)
  rw [below?_ofSegments normal segs other, SeenFrom, pathSegments_ofSegments segs,
    pathSegments_ofSegments normal]
  refine exists_congr fun behind => and_congr_right fun split => ?_
  have more : behind ≠ [] := by
    rintro rfl
    exact other (split.trans (List.append_nil front))
  rw [if_neg more]

/-- From a file nothing is seen but itself. -/
theorem eq_of_seenFrom_file (tree : d.IsTree) (file : (d.fileAt? path).isSome)
    (here : (d.fileAt? (Path.resolve directory target)).isSome)
    (seen : SeenFrom (Path.resolve directory target) path relative) :
    path = Path.resolve directory target := by
  obtain ⟨segments, place, rfl⟩ := tree.exists_isPlace file
  obtain ⟨front, normal, eq⟩ := exists_segments directory target
  obtain ⟨behind, split, -⟩ := seen
  rw [eq] at here split ⊢
  rw [pathSegments_ofSegments fun s mem => (place.segment s mem).1,
    pathSegments_ofSegments normal] at split
  rw [Disk.eq_of_file_above place ⟨behind, split.symm⟩ here]

/-! ### The selection -/

theorem wanted_self : Wanted d root included excluded root ↔
    (d.fileAt? root).isSome ∧ Glob.matchesAny (pathName root) included = true ∧
      Glob.matchesAny (pathName root) excluded = false := by
  constructor
  · rintro ⟨file, relative, seen, chosen⟩
    rw [seenFrom_self.mp seen] at chosen
    exact ⟨file, chosen⟩
  · rintro ⟨file, chosen⟩
    exact ⟨file, _, seenFrom_self.mpr rfl, chosen⟩

theorem mem_select_of_file (file : d.hasFile (Path.resolve directory target) = true)
    (included excluded : List String) :
    ∃ paths, select d directory target (included.map Value.str) (excluded.map Value.str) =
        .ok paths ∧
      ∀ path, path ∈ paths ↔ path = Path.resolve directory target ∧
        Glob.matchesAny (pathName (Path.resolve directory target)) included = true := by
  rw [select_of_file file, matchesSome_texts]
  refine ⟨_, rfl, fun path => ?_⟩
  cases Glob.matchesAny (pathName (Path.resolve directory target)) included <;> simp

theorem mem_select_of_folder (tree : d.IsTree)
    (folder : d.hasFile (Path.resolve directory target) = false)
    (included excluded : List String) :
    ∃ paths, select d directory target (included.map Value.str) (excluded.map Value.str) =
        .ok paths ∧
      ∀ path, path ∈ paths ↔ Wanted d (Path.resolve directory target) included excluded path := by
  rw [select_of_folder folder]
  have total : ∀ item ∈ filesBelow d (Path.resolve directory target), ∃ b,
      isSelected (included.map Value.str) (excluded.map Value.str) item.2 = .ok b :=
    fun item _ => ⟨_, isSelected_texts included excluded item.2⟩
  obtain ⟨paths, kept⟩ := keep_total total
  refine ⟨paths, kept, fun path => ?_⟩
  have passes (relative : String) :
      isSelected (included.map Value.str) (excluded.map Value.str) relative = .ok true ↔
        Glob.matchesAny relative included = true ∧ Glob.matchesAny relative excluded = false := by
    rw [isSelected_texts, Except.ok.injEq, Bool.and_eq_true, Bool.not_eq_true']
  rw [(keep_eq_ok kept).2.2]
  simp only [mem_filesBelow tree, passes]
  constructor
  · rintro ⟨relative, ⟨file, below⟩, chosen⟩
    have ne := ne_resolve_of_file tree folder file
    exact ⟨file, relative, (seenFrom_iff tree file ne).mpr below, chosen⟩
  · rintro ⟨file, relative, seen, chosen⟩
    have ne := ne_resolve_of_file tree folder file
    exact ⟨relative, ⟨file, (seenFrom_iff tree file ne).mp seen⟩, chosen⟩

/-- The selected paths are those of the wanted files, and of a target that is a file whose name is
included. -/
theorem mem_select (tree : d.IsTree) (directory target : String)
    (included excluded : List String) :
    ∃ paths, select d directory target (included.map Value.str) (excluded.map Value.str) =
        .ok paths ∧
      ∀ path, path ∈ paths ↔
        Wanted d (Path.resolve directory target) included excluded path ∨
          path = Path.resolve directory target ∧
            (d.fileAt? (Path.resolve directory target)).isSome ∧
            Glob.matchesAny (pathName (Path.resolve directory target)) included = true := by
  have stands : d.hasFile (Path.resolve directory target) =
      (d.fileAt? (Path.resolve directory target)).isSome := hasFile_resolve tree
  cases file : d.hasFile (Path.resolve directory target) with
  | true =>
    rw [file] at stands
    obtain ⟨paths, selected, mem⟩ := mem_select_of_file file included excluded
    refine ⟨paths, selected, fun path => ?_⟩
    rw [mem]
    constructor
    · exact fun target => .inr ⟨target.1, stands.symm, target.2⟩
    · rintro (⟨wanted, relative, seen, chosen⟩ | target)
      · have same := eq_of_seenFrom_file tree wanted stands.symm seen
        rw [same] at seen
        rw [seenFrom_self.mp seen] at chosen
        exact ⟨same, chosen.1⟩
      · exact ⟨target.1, target.2.2⟩
  | false =>
    rw [file] at stands
    obtain ⟨paths, selected, mem⟩ := mem_select_of_folder tree file included excluded
    refine ⟨paths, selected, fun path => ?_⟩
    rw [mem]
    constructor
    · exact .inl
    · exact fun either => either.resolve_right fun target =>
        Bool.false_ne_true (stands.trans target.2.1)

/-- The selection ends well, and its paths ascend. They are those of the wanted files and, whatever
is excluded, of the target itself if this is a file whose name is included. So they are just those
of the wanted files unless the target is a file whose name is both included and excluded. -/
theorem select_wanted (tree : d.IsTree) (directory target : String)
    (included excluded : List String) :
    ∃ paths, select d directory target (included.map Value.str) (excluded.map Value.str) =
        .ok paths ∧
      paths.Pairwise (· < ·) ∧
      (∀ path, path ∈ paths ↔
        Wanted d (Path.resolve directory target) included excluded path ∨
          path = Path.resolve directory target ∧
            (d.fileAt? (Path.resolve directory target)).isSome ∧
            Glob.matchesAny (pathName (Path.resolve directory target)) included = true) ∧
      ((∀ path, path ∈ paths ↔
          Wanted d (Path.resolve directory target) included excluded path) ↔
        ¬ ((d.fileAt? (Path.resolve directory target)).isSome ∧
          Glob.matchesAny (pathName (Path.resolve directory target)) included = true ∧
          Glob.matchesAny (pathName (Path.resolve directory target)) excluded = true)) := by
  obtain ⟨paths, selected, mem⟩ := mem_select tree directory target included excluded
  refine ⟨paths, selected, (select_spec tree selected).1, mem, ?_⟩
  generalize Path.resolve directory target = root at mem ⊢
  constructor
  · rintro just ⟨file, named, barred⟩
    have wanted := (just root).mp ((mem root).mpr (.inr ⟨rfl, file, named⟩))
    exact Bool.false_ne_true ((wanted_self.mp wanted).2.2.symm.trans barred)
  · intro apart path
    rw [mem]
    constructor
    · rintro (wanted | ⟨rfl, file, named⟩)
      · exact wanted
      · have kept := Bool.eq_false_iff.mpr fun barred => apart ⟨file, named, barred⟩
        exact wanted_self.mpr ⟨file, named, kept⟩
    · exact .inl

/-- A test that is named itself is selected, whatever is excluded. -/
theorem select_wanted_of_named :
    let d := (({} : Disk).put "/p" .folder).put "/p/a.test.tsx" (.file [])
    d.IsTree ∧ ∃ paths,
      select d "/p" "a.test.tsx" (["**/*.tsx"].map .str) (["**/*.test.*"].map .str) = .ok paths ∧
        "/p/a.test.tsx" ∈ paths ∧
        ¬ ∀ path, path ∈ paths ↔ Wanted d "/p/a.test.tsx" ["**/*.tsx"] ["**/*.test.*"] path := by
  intro d
  have tree : d.IsTree := by decide +kernel
  have place : Path.resolve "/p" "a.test.tsx" = "/p/a.test.tsx" := by decide +kernel
  have facts : (d.fileAt? "/p/a.test.tsx").isSome ∧
      Glob.matchesAny (pathName "/p/a.test.tsx") ["**/*.tsx"] = true ∧
      Glob.matchesAny (pathName "/p/a.test.tsx") ["**/*.test.*"] = true := by
    decide +kernel
  obtain ⟨paths, selected, -, mem, just⟩ :=
    select_wanted tree "/p" "a.test.tsx" ["**/*.tsx"] ["**/*.test.*"]
  rw [place] at mem just
  refine ⟨tree, paths, selected, (mem _).mpr (.inr ⟨rfl, facts.1, facts.2.1⟩), fun same => ?_⟩
  exact just.mp same facts

end JsxAudit.Project
