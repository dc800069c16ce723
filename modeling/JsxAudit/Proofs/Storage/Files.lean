import JsxAudit.Storage.Change
import JsxAudit.Proofs.Data.Outcome

/-!
What changes of a disk do to its files.

A path leads to a place through folders alone, so that a disk with the same folders finds the same
places. `writeBytes_eq_ok_iff` splits a write into what it asks of the folders and the one entry it
puts; `makeFolders_spec` says that making folders adds folders and nothing else.

`Changes` says that from one disk to a later one only the files that some paths lead to have changed,
and that no folder is gone. Such steps can be chained: where a path leads to on the last disk, it has
led to before, if it has led anywhere.

A file that can be written can be removed (`remove_of_writable`). What is left is the same disk
without the file, and folders that could be made before can be made again (`Without.makeFolders`), so
that the file can be written again.
-/

namespace JsxAudit.Storage.Disk

variable {d e : Disk} {path place : String} {bytes : List UInt8}

/-! ### Files by place -/

/-- The bytes of the file at a path in normal form. -/
def fileAt? (d : Disk) (path : String) : Option (List UInt8) :=
  match d.at? path with
  | some (.file bytes) => some bytes
  | _ => none

theorem fileAt?_eq_some : d.fileAt? path = some bytes ↔ d.at? path = some (.file bytes) := by
  unfold fileAt?
  split
  · rename_i found
    simp [found]
  · rename_i no
    constructor
    · intro h
      cases h
    · intro h
      exact absurd h (no bytes)

theorem isFolder_iff : d.isFolder path = true ↔ d.at? path = some .folder := by
  simp [isFolder]

theorem isFolder_top : d.isFolder "/" = true := by
  simp [isFolder, at?]

/-- A place outside the folders is not the top. -/
theorem ne_top_of_not_isFolder (h : d.isFolder place = false) : place ≠ "/" := by
  rintro rfl
  rw [isFolder_top] at h
  cases h

theorem inOrder_nil : InOrder [] :=
  List.Pairwise.nil

/-- A disk is a tree if each entry stands where the disk finds its path. -/
structure IsTree (d : Disk) : Prop where
  top : ∀ entry ∈ d.entries, entry.1 ≠ "/"
  located : ∀ entry ∈ d.entries, d.locate? entry.1 = some entry.1

instance (d : Disk) : Decidable d.IsTree :=
  decidable_of_iff (∀ entry ∈ d.entries, entry.1 ≠ "/" ∧ d.locate? entry.1 = some entry.1)
    ⟨fun h => ⟨fun entry mem => (h entry mem).1, fun entry mem => (h entry mem).2⟩,
      fun h entry mem => ⟨h.top entry mem, h.located entry mem⟩⟩

theorem mem_of_at? {x : Entry} (h : d.at? path = some x) (top : path ≠ "/") :
    (path, x) ∈ d.entries := by
  rw [at?, if_neg top] at h
  obtain ⟨before, after, eq, -⟩ := List.lookup_eq_some_iff.mp h
  exact eq ▸ List.mem_append_right _ List.mem_cons_self

theorem IsTree.locate? (tree : d.IsTree) {x : Entry} (h : d.at? path = some x) :
    d.locate? path = some path := by
  by_cases top : path = "/"
  · subst top
    rfl
  · exact tree.located (path, x) (mem_of_at? h top)

theorem IsTree.locate?_file (tree : d.IsTree) (h : d.fileAt? path = some bytes) :
    d.locate? path = some path :=
  tree.locate? (fileAt?_eq_some.mp h)

/-- The files of a disk are what stands at its places. -/
theorem IsTree.mem_files (tree : d.IsTree) :
    (path, bytes) ∈ d.files ↔ d.fileAt? path = some bytes := by
  have entry : (path, bytes) ∈ d.files ↔ (path, Entry.file bytes) ∈ d.entries := by
    unfold files
    rw [List.mem_filterMap]
    constructor
    · rintro ⟨⟨q, x⟩, mem, found⟩
      cases x with
      | file b =>
        cases found
        exact mem
      | folder => cases found
    · intro mem
      exact ⟨_, mem, rfl⟩
  rw [entry, fileAt?_eq_some]
  constructor
  · intro mem
    rw [at?, if_neg (tree.top _ mem)]
    exact lookup_of_mem d.inOrder mem
  · intro found
    refine mem_of_at? found ?_
    rintro rfl
    simp [at?] at found

/-- The paths of the files ascend. -/
theorem files_ascending (d : Disk) : d.files.Pairwise fun a b => a.1 < b.1 := by
  unfold files
  refine d.inOrder.filterMap _ ?_
  rintro ⟨p, x⟩ ⟨q, y⟩ before a found b found'
  cases x <;> cases y <;> cases found <;> cases found'
  exact before

/-- What is read at a place that the path leads to. -/
theorem readText?_of_locate? (found : d.locate? path = some place) :
    d.readText? path =
      ((d.fileAt? place).bind Text.decode?).map Text.withLineFeeds := by
  unfold readText? readBytes find? fileAt?
  rw [found, Option.bind_some]
  cases d.at? place with
  | none => rfl
  | some x => cases x <;> rfl

/-! ### The same folders -/

theorem walk_congr (same : e.isFolder = d.isFolder) (reached segments : List String) :
    e.walk reached segments = d.walk reached segments := by
  induction segments generalizing reached with
  | nil => rfl
  | cons s rest ih => rw [walk, walk, same, ih]

theorem locate?_congr (same : e.isFolder = d.isFolder) (path : String) :
    e.locate? path = d.locate? path := by
  rw [Disk.locate?, Disk.locate?, walk_congr same]

/-- With more folders, a path leads where it has led. -/
theorem walk_mono (more : ∀ path, d.isFolder path → e.isFolder path) {reached out : List String}
    {segments : List String} (h : d.walk reached segments = some out) :
    e.walk reached segments = some out := by
  induction segments generalizing reached with
  | nil => exact h
  | cons s rest ih =>
    rw [walk] at h ⊢
    split at h
    · rename_i folder
      rw [if_pos (more _ folder)]
      exact ih h
    · cases h

theorem locate?_mono (more : ∀ path, d.isFolder path → e.isFolder path)
    (h : d.locate? path = some place) : e.locate? path = some place := by
  obtain ⟨out, walked, rfl⟩ := Option.map_eq_some_iff.mp h
  exact Option.map_eq_some_iff.mpr ⟨out, walk_mono more walked, rfl⟩

theorem isSome_at?_iff : (d.at? path).isSome ↔ d.isFolder path ∨ (d.fileAt? path).isSome := by
  rw [isFolder_iff, fileAt?]
  cases d.at? path with
  | none => simp
  | some x => cases x <;> simp

/-- With more folders and files, what has been there is there. -/
theorem has_mono (more : ∀ path, d.isFolder path → e.isFolder path)
    (files : ∀ path, (d.fileAt? path).isSome → (e.fileAt? path).isSome) (h : d.has path) :
    e.has path := by
  unfold has find? at h ⊢
  cases found : d.locate? path with
  | none =>
    rw [found] at h
    cases h
  | some place =>
    rw [found, Option.bind_some, isSome_at?_iff] at h
    rw [locate?_mono more found, Option.bind_some, isSome_at?_iff]
    exact h.imp (more place) (files place)

/-! ### Writing -/

/-- A file can be written at a path, and it would stand at `place`. -/
structure Writable (d : Disk) (path place : String) : Prop where
  found : d.locate? path = some place
  unlocked : d.locked.contains place = false
  notFolder : d.isFolder place = false
  inside : d.isFolder (Path.parent place) = true

instance (d : Disk) (path place : String) : Decidable (d.Writable path place) :=
  decidable_of_iff (d.locate? path = some place ∧ d.locked.contains place = false ∧
      d.isFolder place = false ∧ d.isFolder (Path.parent place) = true)
    ⟨fun ⟨found, unlocked, notFolder, inside⟩ => ⟨found, unlocked, notFolder, inside⟩,
      fun h => ⟨h.found, h.unlocked, h.notFolder, h.inside⟩⟩

theorem writeBytes_eq_ok_iff :
    d.writeBytes path bytes = .ok e ↔
      ∃ place, d.Writable path place ∧ e = d.put place (.file bytes) := by
  unfold writeBytes
  constructor
  · intro h
    split at h
    · cases h
    · rename_i place found
      split at h
      · cases h
      · rename_i unlocked
        split at h
        · cases h
        · rename_i notFolder
          split at h
          · rename_i inside
            cases h
            exact ⟨place, ⟨found, by simpa using unlocked, by simpa using notFolder, inside⟩, rfl⟩
          · split at h <;> cases h
  · rintro ⟨place, ⟨found, unlocked, notFolder, inside⟩, rfl⟩
    rw [found]
    simp only [unlocked, notFolder, inside, Bool.false_eq_true, if_false, if_true]

/-- Whether a file can be written depends on the folders and the locks. -/
theorem Writable.congr (folders : e.isFolder = d.isFolder) (locked : e.locked = d.locked)
    (w : d.Writable path place) : e.Writable path place where
  found := (locate?_congr folders path).trans w.found
  unlocked := locked ▸ w.unlocked
  notFolder := folders ▸ w.notFolder
  inside := folders ▸ w.inside

/-- A file that can be written can be written when it is there and more folders stand. -/
theorem Writable.mono (more : ∀ path, d.isFolder path → e.isFolder path) (locked : e.locked = d.locked)
    (there : (e.fileAt? place).isSome) (w : d.Writable path place) : e.Writable path place where
  found := locate?_mono more w.found
  unlocked := locked ▸ w.unlocked
  notFolder := by
    obtain ⟨bytes, file⟩ := Option.isSome_iff_exists.mp there
    rw [← Bool.not_eq_true, isFolder_iff, fileAt?_eq_some.mp file]
    nofun
  inside := more _ w.inside

theorem Writable.ne_top (w : d.Writable path place) : place ≠ "/" :=
  ne_top_of_not_isFolder w.notFolder

@[simp] theorem locked_put (place : String) (x : Entry) : (d.put place x).locked = d.locked := rfl

/-- A file in a place that holds no folder leaves the folders as they are. -/
theorem isFolder_put_file (h : d.isFolder place = false) :
    (d.put place (.file bytes)).isFolder = d.isFolder := by
  funext key
  rw [isFolder, at?_put _ _ _ _ (ne_top_of_not_isFolder h)]
  split
  · rename_i same
    subst same
    simp [h]
  · rfl

theorem fileAt?_put_file (top : place ≠ "/") (key : String) :
    (d.put place (.file bytes)).fileAt? key =
      if key = place then some bytes else d.fileAt? key := by
  rw [fileAt?, at?_put _ _ _ _ top]
  by_cases same : key = place
  · simp [same]
  · simp [same, fileAt?]

/-! ### Making folders -/

/-- What becomes of a disk when a file is written at the place that its path names. -/
structure WrittenAt (path : String) (bytes : List UInt8) (d e : Disk) : Prop where
  writable : d.Writable path path
  folders : e.isFolder = d.isFolder
  locked : e.locked = d.locked
  file : ∀ key, e.fileAt? key = if key = path then some bytes else d.fileAt? key

theorem writtenAt_of_writeBytes (located : d.locate? path = some path)
    (h : d.writeBytes path bytes = .ok e) : WrittenAt path bytes d e := by
  obtain ⟨place, w, rfl⟩ := writeBytes_eq_ok_iff.mp h
  obtain rfl : place = path := Option.some.inj (w.found.symm.trans located)
  exact ⟨w, isFolder_put_file w.notFolder, rfl, fileAt?_put_file w.ne_top⟩

/-- More folders and nothing else. -/
structure Grown (d e : Disk) : Prop where
  folders : ∀ path, d.isFolder path → e.isFolder path
  files : e.fileAt? = d.fileAt?
  locked : e.locked = d.locked

theorem Grown.refl (d : Disk) : Grown d d := ⟨fun _ h => h, rfl, rfl⟩

theorem Grown.trans {c : Disk} (first : Grown c d) (second : Grown d e) : Grown c e where
  folders path h := second.folders path (first.folders path h)
  files := second.files.trans first.files
  locked := second.locked.trans first.locked

theorem grown_put_folder (free : d.at? place = none) : Grown d (d.put place .folder) := by
  have top : place ≠ "/" := by
    rintro rfl
    simp [at?] at free
  refine ⟨fun path folder => ?_, funext fun path => ?_, rfl⟩
  · rw [isFolder_iff, at?_put _ _ _ _ top]
    split
    · rfl
    · exact isFolder_iff.mp folder
  · rw [fileAt?, at?_put _ _ _ _ top]
    by_cases same : path = place
    · simp [same, fileAt?, free]
    · simp [same, fileAt?]

/-- Folders stand at each step from some segments on. -/
def FoldersFrom (d : Disk) (reached : List String) : List String → Prop
  | [] => True
  | s :: rest =>
    let next := if s = ".." then reached.dropLast else reached ++ [s]
    d.isFolder (Path.ofSegments next) ∧ FoldersFrom d next rest

instance FoldersFrom.decidable (d : Disk) :
    (reached segments : List String) → Decidable (d.FoldersFrom reached segments)
  | _, [] => .isTrue trivial
  | reached, s :: rest =>
    let next := if s = ".." then reached.dropLast else reached ++ [s]
    have := decidable d next rest
    instDecidableAnd (p := d.isFolder (Path.ofSegments next)) (q := d.FoldersFrom next rest)

theorem FoldersFrom.mono (more : ∀ path, d.isFolder path → e.isFolder path)
    {reached segments : List String} (h : d.FoldersFrom reached segments) :
    e.FoldersFrom reached segments := by
  induction segments generalizing reached with
  | nil => trivial
  | cons s rest ih => exact ⟨more _ h.1, ih h.2⟩

theorem makeFoldersFrom_spec {reached segments : List String}
    (h : d.makeFoldersFrom reached segments = .ok e) :
    Grown d e ∧ e.FoldersFrom reached segments := by
  induction segments generalizing d reached with
  | nil =>
    cases h
    exact ⟨Grown.refl _, trivial⟩
  | cons s rest ih =>
    rw [makeFoldersFrom] at h
    split at h
    · rename_i free
      obtain ⟨grown, stand⟩ := ih h
      have first := grown_put_folder free
      refine ⟨first.trans grown, grown.folders _ ?_, stand⟩
      rw [isFolder_iff, at?_put, if_pos rfl]
      rintro top
      rw [top] at free
      simp [at?] at free
    · rename_i folder
      obtain ⟨grown, stand⟩ := ih h
      exact ⟨grown, grown.folders _ (isFolder_iff.mpr folder), stand⟩
    · cases h

/-- Where the folders stand there is nothing to make. -/
theorem makeFoldersFrom_of_stand {reached segments : List String}
    (h : d.FoldersFrom reached segments) : d.makeFoldersFrom reached segments = .ok d := by
  induction segments generalizing reached with
  | nil => rfl
  | cons s rest ih =>
    obtain ⟨folder, others⟩ := h
    simp only [makeFoldersFrom, isFolder_iff.mp folder]
    exact ih others

theorem makeFolders_spec (h : d.makeFolders path = .ok e) : Grown d e :=
  (makeFoldersFrom_spec h).1

/-- Folders once made need not be made again, whatever folders come with them. -/
theorem makeFolders_again (h : d.makeFolders path = .ok e) {later : Disk}
    (more : ∀ path, e.isFolder path → later.isFolder path) :
    later.makeFolders path = .ok later :=
  makeFoldersFrom_of_stand ((makeFoldersFrom_spec h).2.mono more)

/-! ### Which files are changed -/

variable {c : Disk} {target : String} {targets : List String}

/-- All folders are still there, and all files that none of the paths leads to are what they were. -/
structure Changes (targets : List String) (d e : Disk) : Prop where
  folders : ∀ path, d.isFolder path → e.isFolder path
  files : ∀ path, (∀ target ∈ targets, e.locate? target ≠ some path) →
    e.fileAt? path = d.fileAt? path

theorem Changes.refl (targets : List String) (d : Disk) : Changes targets d d :=
  ⟨fun _ h => h, fun _ _ => rfl⟩

theorem Changes.trans (first : Changes targets c d) (second : Changes targets d e) :
    Changes targets c e where
  folders path h := second.folders path (first.folders path h)
  files path apart := by
    rw [second.files path apart]
    refine first.files path fun target mem found => ?_
    exact apart target mem (locate?_mono second.folders found)

/-- New folders change no file. -/
theorem Grown.changes (h : Grown d e) (targets : List String) : Changes targets d e :=
  ⟨h.folders, fun path _ => congrFun h.files path⟩

/-- Writing a file changes the file at its path. -/
theorem changes_writeBytes (h : d.writeBytes target bytes = .ok e) (mem : target ∈ targets) :
    Changes targets d e := by
  obtain ⟨place, w, rfl⟩ := writeBytes_eq_ok_iff.mp h
  have folders : (d.put place (.file bytes)).isFolder = d.isFolder := isFolder_put_file w.notFolder
  refine ⟨fun path h => folders ▸ h, fun path apart => ?_⟩
  have ne : path ≠ place := by
    rintro rfl
    exact apart target mem ((locate?_congr folders target).trans w.found)
  rw [fileAt?_put_file w.ne_top, if_neg ne]

/-! ### Removing a file -/

variable {made : Disk}

/-- The second disk is the first one without the file at a place. -/
structure Without (d e : Disk) (place : String) : Prop where
  file : (d.fileAt? place).isSome
  gone : e.at? place = none
  others : ∀ path, path ≠ place → e.at? path = d.at? path
  locked : e.locked = d.locked

theorem without_erase (file : d.at? place = some (.file bytes)) :
    Without d (d.erase place) place where
  file := by rw [fileAt?_eq_some.mpr file]; rfl
  gone := by
    have below : place ≠ "/" := by
      rintro rfl
      simp [at?] at file
    rw [at?_erase _ _ _ below, if_pos rfl]
  others path ne := by
    by_cases top : path = "/"
    · simp [at?, top]
    · rw [at?_erase _ _ _ top, if_neg ne]
  locked := rfl

/-- Without a file there are the same folders. -/
theorem Without.isFolder (h : Without d e place) : e.isFolder = d.isFolder := by
  funext path
  by_cases same : path = place
  · subst same
    obtain ⟨bytes, file⟩ := Option.isSome_iff_exists.mp h.file
    rw [Disk.isFolder, Disk.isFolder, h.gone, fileAt?_eq_some.mp file]
    rfl
  · rw [Disk.isFolder, Disk.isFolder, h.others path same]

/-- A file is not in the way of a new folder. -/
theorem Without.put_folder (h : Without d e place) (free : d.at? path = none) :
    Without (d.put path .folder) (e.put path .folder) place := by
  have grown := grown_put_folder free
  have below : path ≠ "/" := by
    rintro rfl
    simp [at?] at free
  have apart : place ≠ path := by
    rintro rfl
    have file := h.file
    rw [fileAt?, free] at file
    cases file
  refine ⟨grown.files ▸ h.file, ?_, fun path' ne => ?_, h.locked⟩
  · rw [at?_put _ _ _ _ below, if_neg apart, h.gone]
  · rw [at?_put _ _ _ _ below, at?_put _ _ _ _ below, h.others path' ne]

theorem Without.makeFoldersFrom {reached segments : List String} (h : Without d e place)
    (ok : d.makeFoldersFrom reached segments = .ok made) :
    ∃ made', e.makeFoldersFrom reached segments = .ok made' ∧ Without made made' place := by
  induction segments generalizing d e reached with
  | nil =>
    cases ok
    exact ⟨e, rfl, h⟩
  | cons s rest ih =>
    rw [Disk.makeFoldersFrom] at ok ⊢
    generalize Path.ofSegments (if s = ".." then reached.dropLast else reached ++ [s]) = next at ok ⊢
    cases stands : d.at? next with
    | none =>
      rw [stands] at ok
      have free : e.at? next = none := by
        by_cases same : next = place
        · exact same ▸ h.gone
        · rw [h.others next same, stands]
      rw [free]
      exact ih (h.put_folder stands) ok
    | some x =>
      rw [stands] at ok
      cases x with
      | folder =>
        have folder : e.at? next = some .folder := by
          rw [← isFolder_iff, h.isFolder, isFolder_iff, stands]
        rw [folder]
        exact ih h ok
      | file bytes => cases ok

/-- Folders that can be made can be made without the file. -/
theorem Without.makeFolders (h : Without d e place) (ok : d.makeFolders path = .ok made) :
    ∃ made', e.makeFolders path = .ok made' ∧ Without made made' place :=
  h.makeFoldersFrom ok

/-- A file that is not there is not read. -/
theorem readText?_of_find?_none (h : d.find? path = none) : d.readText? path = none := by
  unfold readText? readBytes
  rw [h]

theorem Without.readText? (h : Without d e place) (found : d.locate? path = some place) :
    e.readText? path = none := by
  refine readText?_of_find?_none ?_
  rw [find?, locate?_congr h.isFolder, found, Option.bind_some, h.gone]

/-- Where a file could be written, perhaps after folders have been made for it, a file can be removed,
be it there or not. -/
theorem remove_of_writable (grown : Grown d made) (w : made.Writable path place) :
    (d.remove path = .ok d ∧ d.find? path = none) ∨
      ∃ e, d.remove path = .ok e ∧ d.locate? path = some place ∧ Without d e place := by
  unfold remove find?
  cases found : d.locate? path with
  | none => exact .inl ⟨rfl, rfl⟩
  | some place' =>
    obtain rfl : place' = place :=
      Option.some.inj ((locate?_mono grown.folders found).symm.trans w.found)
    dsimp only
    cases stands : d.at? place' with
    | some x =>
      cases x with
      | file bytes => exact .inr ⟨_, rfl, rfl, without_erase stands⟩
      | folder =>
        have folder := grown.folders place' (isFolder_iff.mpr stands)
        rw [w.notFolder] at folder
        cases folder
    | none =>
      left
      refine ⟨?_, by rw [Option.bind_some, stands]⟩
      dsimp only
      split
      · rename_i bytes above
        -- the folder that is made for the file stands where a file is
        have file := fileAt?_eq_some.mp ((congrFun grown.files _).trans (fileAt?_eq_some.mpr above))
        rw [isFolder_iff.mp w.inside] at file
        cases file
      · rfl

end JsxAudit.Storage.Disk
