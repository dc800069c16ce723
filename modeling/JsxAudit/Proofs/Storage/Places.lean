import JsxAudit.Proofs.Storage.Files
import JsxAudit.Proofs.Text.Blank

/-!
Paths, and the places they lead to.

A list of segments and the path made of it determine each other (`pathSegments_ofSegments`). The
place that a path leads to is its normal form (`locate?_eq_resolve`), and a place leads to itself
(`locate?_idem`). Writing files and making folders keep a disk a tree.

Below a folder lie the paths that go on behind its segments, and there they are seen as the
segments behind, with slashes in between (`below?_ofSegments`). Nothing lies below a file
(`eq_of_file_above`).
-/

namespace JsxAudit.Text

/-! ### Segments -/

/-- A text that can stand between two slashes of a path and is not idle there. -/
structure IsSegment (s : String) : Prop where
  noSlash : '/' ∉ s.toList
  ne_empty : s ≠ ""
  ne_dot : s ≠ "."

theorem isSegment_of_mem {path s : String} (h : s ∈ pathSegments path) : IsSegment s := by
  obtain ⟨mem, idle⟩ := List.mem_filter.mp h
  obtain ⟨piece, piece_mem, rfl⟩ := List.mem_map.mp mem
  simp only [Bool.and_eq_true, bne_iff_ne, ne_eq] at idle
  exact ⟨by simpa using not_mem_of_mem_splitChars piece_mem, idle.1, idle.2⟩

theorem splitOn_intercalate {first : String} {rest : List String} (h : IsSegment first)
    (others : ∀ s ∈ rest, IsSegment s) :
    splitOn '/' ("/".intercalate (first :: rest)) = first :: rest := by
  induction rest generalizing first with
  | nil =>
    rw [String.intercalate_singleton, splitOn, splitChars_of_not_mem h.noSlash]
    simp
  | cons second rest ih =>
    have front : ("/".intercalate (first :: second :: rest)).toList =
        first.toList ++ '/' :: ("/".intercalate (second :: rest)).toList := by
      rw [String.intercalate_cons_cons]
      simp
    rw [splitOn, front, splitChars_append h.noSlash, List.map_cons]
    have := ih (others _ List.mem_cons_self) fun s mem => others s (List.mem_cons_of_mem _ mem)
    rw [splitOn] at this
    rw [this]
    simp

/-- The segments of the path that is made of them. -/
theorem pathSegments_ofSegments {segments : List String} (h : ∀ s ∈ segments, IsSegment s) :
    pathSegments (Storage.Path.ofSegments segments) = segments := by
  have slash (path : String) : splitOn '/' ("/" ++ path) = "" :: splitOn '/' path := by
    simp [splitOn, splitChars]
  have kept : segments.filter (fun s => s != "" && s != ".") = segments := by
    refine List.filter_eq_self.mpr fun s mem => ?_
    simp [(h s mem).ne_empty, (h s mem).ne_dot]
  rw [pathSegments, Storage.Path.ofSegments, slash]
  cases segments with
  | nil => rfl
  | cons first rest =>
    rw [splitOn_intercalate (h _ List.mem_cons_self) fun s mem => h s (List.mem_cons_of_mem _ mem)]
    rw [List.filter_cons_of_neg (by simp)]
    exact kept

end JsxAudit.Text

namespace JsxAudit.Storage.Disk

open Text

variable {d e : Disk} {path place : String} {bytes : List UInt8}

/-! ### Walks -/

/-- The segments reached after one more. -/
def stepTo (reached : List String) (s : String) : List String :=
  if s = ".." then reached.dropLast else reached ++ [s]

theorem walk_eq {reached out segments : List String} (h : d.walk reached segments = some out) :
    out = segments.foldl stepTo reached := by
  induction segments generalizing reached with
  | nil => exact (Option.some.inj h).symm
  | cons s rest ih =>
    rw [walk] at h
    split at h
    · exact ih h
    · cases h

/-- Normal segments are walked from the other end. -/
theorem foldl_stepTo (segments done : List String) :
    (segments.filter fun s => s != "" && s != ".").foldl stepTo done.reverse =
      (segments.foldl (fun (done : List String) s =>
        if s = "" || s = "." then done else if s = ".." then done.drop 1 else s :: done)
        done).reverse := by
  induction segments generalizing done with
  | nil => rfl
  | cons s rest ih =>
    rw [List.foldl_cons]
    by_cases idle : s = "" ∨ s = "."
    · rw [List.filter_cons_of_neg (by rcases idle with rfl | rfl <;> simp)]
      simpa [idle] using ih done
    · rw [List.filter_cons_of_pos (by simpa using idle), List.foldl_cons]
      simp only [not_or] at idle
      by_cases up : s = ".."
      · subst up
        have dropped : stepTo done.reverse ".." = (done.drop 1).reverse := by
          simp [stepTo, List.dropLast_reverse]
        rw [dropped, ih]
        simp
      · have added : stepTo done.reverse s = (s :: done).reverse := by
          simp [stepTo, up]
        rw [added, ih]
        simp [idle.1, idle.2, up]

/-- The place that a path leads to is its normal form. -/
theorem locate?_eq_normal (h : d.locate? path = some place) :
    place = Path.ofSegments (normalSegments (splitOn '/' path)) := by
  obtain ⟨out, walked, rfl⟩ := Option.map_eq_some_iff.mp h
  rw [walk_eq walked, normalSegments]
  exact congrArg Path.ofSegments (foldl_stepTo (splitOn '/' path) [])

theorem locate?_eq_resolve {base : String} (h : d.locate? (Path.join base path) = some place) :
    place = Path.resolve base path :=
  locate?_eq_normal h

/-! ### Places -/

/-- Segments that name a place: none of them goes up, and all but the last lead to folders. -/
structure IsPlace (d : Disk) (segments : List String) : Prop where
  segment : ∀ s ∈ segments, IsSegment s ∧ s ≠ ".."
  inside : ∀ front, front <+: segments → front ≠ segments → d.isFolder (Path.ofSegments front)

theorem IsPlace.stepTo {reached : List String} (h : d.IsPlace reached)
    (folder : d.isFolder (Path.ofSegments reached)) {s : String} (seg : IsSegment s) :
    d.IsPlace (stepTo reached s) := by
  unfold Disk.stepTo
  split
  · refine ⟨fun x mem => h.segment x (List.dropLast_subset _ mem), fun front before ne => ?_⟩
    have inside := before.trans (List.dropLast_prefix reached)
    refine h.inside front inside ?_
    rintro rfl
    exact ne (before.eq_of_length_le (by simp))
  · rename_i up
    constructor
    · intro x mem
      rcases List.mem_append.mp mem with mem | mem
      · exact h.segment x mem
      · rw [List.mem_singleton.mp mem]
        exact ⟨seg, up⟩
    · intro front before ne
      have inside : front <+: reached := by
        rcases List.prefix_concat_iff.mp before with same | inside
        · exact absurd same ne
        · exact inside
      by_cases same : front = reached
      · exact same ▸ folder
      · exact h.inside front inside same

theorem IsPlace.walk {reached out segments : List String} (h : d.IsPlace reached)
    (segs : ∀ s ∈ segments, IsSegment s) (walked : d.walk reached segments = some out) :
    d.IsPlace out := by
  induction segments generalizing reached with
  | nil => exact Option.some.inj walked ▸ h
  | cons s rest ih =>
    rw [Disk.walk] at walked
    split at walked
    · rename_i folder
      exact ih (h.stepTo folder (segs s List.mem_cons_self))
        (fun x mem => segs x (List.mem_cons_of_mem _ mem)) walked
    · cases walked

/-- A walk along a place goes through. -/
theorem IsPlace.walk_to (reached : List String) {rest : List String}
    (h : d.IsPlace (reached ++ rest)) :
    d.walk reached rest = some (reached ++ rest) := by
  induction rest generalizing reached with
  | nil => simp [Disk.walk]
  | cons s rest ih =>
    have folder : d.isFolder (Path.ofSegments reached) :=
      h.inside reached (List.prefix_append _ _) (by simp)
    have down : s ≠ ".." := (h.segment s (by simp)).2
    have split : reached ++ s :: rest = (reached ++ [s]) ++ rest := by simp
    rw [Disk.walk, if_pos folder, if_neg down, split]
    exact ih (reached ++ [s]) (split ▸ h)

theorem isPlace_nil (d : Disk) : d.IsPlace [] :=
  ⟨nofun, fun _ before ne => absurd (List.prefix_nil.mp before) ne⟩

theorem IsPlace.mono {segments : List String} (more : ∀ path, d.isFolder path → e.isFolder path)
    (h : d.IsPlace segments) : e.IsPlace segments :=
  ⟨h.segment, fun front before ne => more _ (h.inside front before ne)⟩

theorem IsPlace.locate? {segments : List String} (h : d.IsPlace segments) :
    d.locate? (Path.ofSegments segments) = some (Path.ofSegments segments) := by
  rw [Disk.locate?, pathSegments_ofSegments fun s mem => (h.segment s mem).1]
  exact Option.map_eq_some_iff.mpr ⟨segments, IsPlace.walk_to [] h, rfl⟩

/-- The place of a path leads to itself. -/
theorem locate?_idem (h : d.locate? path = some place) : d.locate? place = some place := by
  obtain ⟨out, walked, rfl⟩ := Option.map_eq_some_iff.mp h
  exact ((isPlace_nil d).walk (fun s mem => isSegment_of_mem mem) walked).locate?

/-! ### Normal forms -/

theorem mem_foldl_stepTo {segments reached : List String} {s : String}
    (h : s ∈ segments.foldl stepTo reached) : s ∈ reached ∨ s ∈ segments ∧ s ≠ ".." := by
  induction segments generalizing reached with
  | nil => exact .inl h
  | cons x rest ih =>
    rcases ih h with mem | ⟨mem, down⟩
    · unfold Disk.stepTo at mem
      split at mem
      · exact .inl (List.dropLast_subset _ mem)
      · rename_i down
        rcases List.mem_append.mp mem with mem | mem
        · exact .inl mem
        · rw [List.mem_singleton.mp mem]
          exact .inr ⟨List.mem_cons_self, down⟩
    · exact .inr ⟨List.mem_cons_of_mem _ mem, down⟩

theorem foldl_stepTo_of_down {segments : List String} (h : ∀ s ∈ segments, s ≠ "..")
    (reached : List String) : segments.foldl stepTo reached = reached ++ segments := by
  induction segments generalizing reached with
  | nil => simp
  | cons s rest ih =>
    have down : stepTo reached s = reached ++ [s] := if_neg (h s List.mem_cons_self)
    rw [List.foldl_cons, down, ih fun x mem => h x (List.mem_cons_of_mem _ mem)]
    simp

theorem normalSegments_eq (path : String) :
    normalSegments (splitOn '/' path) = (pathSegments path).foldl stepTo [] :=
  (foldl_stepTo (splitOn '/' path) []).symm

/-- A path in normal form leads to itself if it leads anywhere. -/
theorem locate?_resolve {base : String} (h : d.locate? (Path.resolve base path) = some place) :
    place = Path.resolve base path := by
  have segs : ∀ s ∈ normalSegments (splitOn '/' (Path.join base path)), IsSegment s ∧ s ≠ ".." := by
    intro s mem
    rw [normalSegments_eq] at mem
    rcases mem_foldl_stepTo mem with mem | ⟨mem, down⟩
    · cases mem
    · exact ⟨isSegment_of_mem mem, down⟩
  rw [locate?_eq_normal h, normalSegments_eq, Path.resolve,
    pathSegments_ofSegments fun s mem => (segs s mem).1,
    foldl_stepTo_of_down fun s mem => (segs s mem).2]
  rfl

/-! ### Trees -/

theorem mem_entries_put {x : Entry} {entry : String × Entry}
    (h : entry ∈ (d.put place x).entries) : entry.1 = place ∨ entry ∈ d.entries :=
  mem_putEntry h

/-- A tree with a file more is a tree. -/
theorem IsTree.put_file (tree : d.IsTree) (w : d.Writable path place) :
    (d.put place (.file bytes)).IsTree := by
  have same : (d.put place (.file bytes)).isFolder = d.isFolder := isFolder_put_file w.notFolder
  constructor
  · intro entry mem
    rcases mem_entries_put mem with eq | mem
    · exact eq ▸ w.ne_top
    · exact tree.top entry mem
  · intro entry mem
    rw [locate?_congr same]
    rcases mem_entries_put mem with eq | mem
    · exact eq ▸ locate?_idem w.found
    · exact tree.located entry mem

/-- A tree with a folder more is a tree. -/
theorem IsTree.put_folder {segments : List String} (tree : d.IsTree) (h : d.IsPlace segments)
    (free : d.at? (Path.ofSegments segments) = none) :
    (d.put (Path.ofSegments segments) .folder).IsTree := by
  have grown := grown_put_folder free
  constructor
  · intro entry mem
    rcases mem_entries_put mem with eq | mem
    · rw [eq]
      intro top
      rw [top] at free
      simp [at?] at free
    · exact tree.top entry mem
  · intro entry mem
    rcases mem_entries_put mem with eq | mem
    · rw [eq]
      exact (h.mono grown.folders).locate?
    · exact locate?_mono grown.folders (tree.located entry mem)

theorem IsTree.makeFoldersFrom {reached segments : List String} (tree : d.IsTree)
    (h : d.IsPlace reached) (folder : d.isFolder (Path.ofSegments reached))
    (segs : ∀ s ∈ segments, IsSegment s) (made : d.makeFoldersFrom reached segments = .ok e) :
    e.IsTree := by
  induction segments generalizing d reached with
  | nil =>
    cases made
    exact tree
  | cons s rest ih =>
    have next := h.stepTo folder (segs s List.mem_cons_self)
    have others : ∀ x ∈ rest, IsSegment x := fun x mem => segs x (List.mem_cons_of_mem _ mem)
    rw [Disk.makeFoldersFrom] at made
    split at made
    · rename_i free
      have grown := grown_put_folder free
      have shut : d.isFolder (Path.ofSegments (stepTo reached s)) = false := by
        rw [Bool.eq_false_iff, ne_eq, isFolder_iff]
        intro there
        cases free.symm.trans there
      refine ih (tree.put_folder next free) (next.mono grown.folders) ?_ others made
      rw [isFolder_iff, at?_put _ _ _ _ (ne_top_of_not_isFolder shut)]
      exact if_pos rfl
    · rename_i there
      exact ih tree next (isFolder_iff.mpr there) others made
    · cases made

theorem IsTree.makeFolders (tree : d.IsTree) (made : d.makeFolders path = .ok e) : e.IsTree :=
  tree.makeFoldersFrom (isPlace_nil d) isFolder_top (fun _ mem => isSegment_of_mem mem) made

theorem IsTree.writeBytes (tree : d.IsTree) (h : d.writeBytes path bytes = .ok e) : e.IsTree := by
  obtain ⟨place, w, rfl⟩ := writeBytes_eq_ok_iff.mp h
  exact tree.put_file w

end JsxAudit.Storage.Disk

namespace JsxAudit.Text

open Storage

/-! ### Paths put together -/

theorem pathSegments_append (front back : String) :
    pathSegments (front ++ "/" ++ back) = pathSegments front ++ pathSegments back := by
  have chars : (front ++ "/" ++ back).toList = front.toList ++ '/' :: back.toList := by simp
  unfold pathSegments splitOn
  rw [chars, splitChars_append_sep, List.map_append, List.filter_append]

theorem pathSegments_of_isSegment {s : String} (h : IsSegment s) : pathSegments s = [s] := by
  unfold pathSegments splitOn
  rw [splitChars_of_not_mem h.noSlash]
  simp [h.ne_empty, h.ne_dot]

/-- A path without its idle segments has the segments of the path. -/
theorem pathSegments_clean (path : String) : pathSegments (Path.clean path) = pathSegments path := by
  have segs : ∀ s ∈ pathSegments path, IsSegment s := fun s mem => isSegment_of_mem mem
  have kept : (pathSegments path).filter (fun s => s != "" && s != ".") = pathSegments path := by
    refine List.filter_eq_self.mpr fun s mem => ?_
    simp [(segs s mem).ne_empty, (segs s mem).ne_dot]
  unfold Path.clean
  dsimp only
  split
  · exact pathSegments_ofSegments segs
  · cases eq : pathSegments path with
    | nil => rfl
    | cons first rest =>
      rw [eq] at segs kept
      rw [List.isEmpty_cons, if_neg (by simp), pathSegments, splitOn_intercalate
        (segs _ List.mem_cons_self) fun s mem => segs s (List.mem_cons_of_mem _ mem)]
      exact kept

theorem pathSegments_join (folder : String) {name : String} (h : IsSegment name) :
    pathSegments (Path.join folder name) = pathSegments folder ++ [name] := by
  have relative : Path.isAbsolute name = false := by
    unfold Path.isAbsolute
    cases chars : name.toList with
    | nil => rfl
    | cons c rest =>
      have ne : c ≠ '/' := by
        rintro rfl
        exact h.noSlash (chars ▸ List.mem_cons_self)
      simpa using ne
  unfold Path.join
  rw [relative, if_neg (by simp), pathSegments_clean, pathSegments_append,
    pathSegments_of_isSegment h]

end JsxAudit.Text

namespace JsxAudit.Storage

open Text

/-! ### Folders as beginnings of paths -/

/-- A folder as the beginning of the paths below it. -/
def folderText (segments : List String) : String :=
  if segments = [] then "/" else Path.ofSegments segments ++ "/"

theorem ofSegments_append {behind : List String} (segments : List String) (more : behind ≠ []) :
    Path.ofSegments (segments ++ behind) = folderText segments ++ "/".intercalate behind := by
  unfold folderText Path.ofSegments
  split
  · rename_i top
    rw [top, List.nil_append]
  · rename_i filled
    rw [intercalate_append filled more]
    simp only [String.append_assoc]

theorem pathSegments_folderText {segments : List String} (h : ∀ s ∈ segments, IsSegment s)
    (path : String) :
    pathSegments (folderText segments ++ path) = segments ++ pathSegments path := by
  unfold folderText
  split
  · rename_i top
    have front : pathSegments ("" ++ "/" ++ path) = pathSegments "" ++ pathSegments path :=
      pathSegments_append "" path
    rw [top]
    exact front
  · rw [pathSegments_append, pathSegments_ofSegments h]

variable {a b : List String}

theorem ofSegments_injective (ha : ∀ s ∈ a, IsSegment s) (hb : ∀ s ∈ b, IsSegment s)
    (same : Path.ofSegments a = Path.ofSegments b) : a = b := by
  rw [← pathSegments_ofSegments ha, same, pathSegments_ofSegments hb]

/-- What is seen of a path from a folder are the segments behind those of the folder. -/
theorem below?_ofSegments (ha : ∀ s ∈ a, IsSegment s) (hb : ∀ s ∈ b, IsSegment s) (ne : b ≠ a)
    {relative : String} :
    Path.below? (Path.ofSegments a) (Path.ofSegments b) = some relative ↔
      ∃ behind, b = a ++ behind ∧ relative = "/".intercalate behind := by
  have folder : (if Path.ofSegments a = "/" then "/" else Path.ofSegments a ++ "/") =
      folderText a := by
    have top : Path.ofSegments a = "/" ↔ a = [] :=
      ⟨fun same => ofSegments_injective ha nofun same, fun empty => empty ▸ rfl⟩
    simp only [folderText, top]
  rw [Path.below?, folder, after?_eq_some_iff]
  constructor
  · intro written
    have segments : b = a ++ pathSegments relative := by
      rw [← pathSegments_folderText ha, ← written, pathSegments_ofSegments hb]
    have more : pathSegments relative ≠ [] := by
      intro none
      rw [none, List.append_nil] at segments
      exact ne segments
    refine ⟨_, segments, ?_⟩
    rw [segments, ofSegments_append a more] at written
    have chars := congrArg String.toList written
    rw [String.toList_append, String.toList_append] at chars
    exact (String.toList_inj.mp (List.append_cancel_left chars)).symm
  · rintro ⟨behind, rfl, rfl⟩
    refine ofSegments_append a ?_
    rintro rfl
    exact ne (List.append_nil a)

namespace Disk

variable {d : Disk} {path root : String}

/-! ### Files below files -/

/-- A file stands at a place. -/
theorem IsTree.exists_isPlace (tree : d.IsTree) (file : (d.fileAt? path).isSome) :
    ∃ segments, d.IsPlace segments ∧ path = Path.ofSegments segments := by
  obtain ⟨bytes, file⟩ := Option.isSome_iff_exists.mp file
  obtain ⟨segments, walked, located⟩ := Option.map_eq_some_iff.mp (tree.locate?_file file)
  exact ⟨segments, (isPlace_nil d).walk (fun s mem => isSegment_of_mem mem) walked, located.symm⟩

/-- A path that goes on behind a file is the file itself. -/
theorem eq_of_file_above {segments front : List String} (h : d.IsPlace segments)
    (before : front <+: segments) (file : (d.fileAt? (Path.ofSegments front)).isSome) :
    front = segments := by
  by_contra ne
  have folder := isFolder_iff.mp (h.inside front before ne)
  obtain ⟨bytes, file⟩ := Option.isSome_iff_exists.mp file
  cases folder.symm.trans (fileAt?_eq_some.mp file)

end Disk

end JsxAudit.Storage
