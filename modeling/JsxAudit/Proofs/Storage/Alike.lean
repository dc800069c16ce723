import JsxAudit.Proofs.Storage.Places

/-!
Disks that are alike but for one file.

Two names in one folder have different places (`placeOf_join_ne`). Disks are alike if they have the
same folders and, but for one place, the same files: then paths lead to the same places, what is read
elsewhere is the same, and a write elsewhere ends the same way and leaves the disks alike
(`Alike.writeBytes`).
-/

namespace JsxAudit.Storage

open Text

/-- The place of a path: its normal form. -/
def placeOf (path : String) : String :=
  Path.ofSegments (normalSegments (splitOn '/' path))

/-- Two names in one folder have different places. -/
theorem placeOf_join_ne (folder : String) {a b : String} (ha : IsSegment a) (hb : IsSegment b)
    (downA : a ≠ "..") (downB : b ≠ "..") (ne : a ≠ b) :
    placeOf (Path.join folder a) ≠ placeOf (Path.join folder b) := by
  have place {name : String} (h : IsSegment name) (down : name ≠ "..") :
      pathSegments (placeOf (Path.join folder name)) =
        (pathSegments folder).foldl Disk.stepTo [] ++ [name] := by
    have last : (pathSegments (Path.join folder name)).foldl Disk.stepTo [] =
        (pathSegments folder).foldl Disk.stepTo [] ++ [name] := by
      rw [pathSegments_join folder h, List.foldl_append, List.foldl_cons, List.foldl_nil]
      exact if_neg down
    rw [placeOf, Disk.normalSegments_eq, last]
    refine pathSegments_ofSegments fun s mem => ?_
    rcases List.mem_append.mp mem with mem | mem
    · rcases Disk.mem_foldl_stepTo mem with mem | ⟨mem, -⟩
      · cases mem
      · exact isSegment_of_mem mem
    · rw [List.mem_singleton.mp mem]
      exact h
  intro same
  have eq := (place ha downA).symm.trans (same ▸ place hb downB)
  exact ne (List.singleton_inj.mp (List.append_cancel_left eq))

/-- A path in normal form is a place. -/
theorem placeOf_resolve (base path : String) :
    placeOf (Path.resolve base path) = Path.resolve base path := by
  have segs : ∀ s ∈ normalSegments (splitOn '/' (Path.join base path)), IsSegment s ∧ s ≠ ".." := by
    intro s mem
    rw [Disk.normalSegments_eq] at mem
    rcases Disk.mem_foldl_stepTo mem with mem | ⟨mem, down⟩
    · cases mem
    · exact ⟨isSegment_of_mem mem, down⟩
  rw [placeOf, Disk.normalSegments_eq, Path.resolve,
    pathSegments_ofSegments fun s mem => (segs s mem).1,
    Disk.foldl_stepTo_of_down fun s mem => (segs s mem).2]
  rfl

namespace Disk

variable {d e : Disk} {path place : String} {bytes : List UInt8}

/-- What a path leads to lies in a folder. -/
theorem isFolder_parent (h : d.locate? path = some place) : d.isFolder (Path.parent place) = true := by
  obtain ⟨out, walked, rfl⟩ := Option.map_eq_some_iff.mp h
  have here := (isPlace_nil d).walk (fun s mem => isSegment_of_mem mem) walked
  rw [Path.parent, pathSegments_ofSegments fun s mem => (here.segment s mem).1]
  by_cases top : out = []
  · rw [top]
    exact isFolder_top
  · refine here.inside _ (List.dropLast_prefix out) fun same => ?_
    have shorter := congrArg List.length same
    have some := List.length_pos_iff.mpr top
    rw [List.length_dropLast] at shorter
    omega

/-- A file can be written where its path leads to, unless a lock or a folder is there. -/
theorem writeBytes_eq (d : Disk) (path : String) (bytes : List UInt8) :
    d.writeBytes path bytes = match d.locate? path with
      | none => .error .missing
      | some place =>
        if d.locked.contains place then .error .denied
        else if d.isFolder place then .error .isFolder
        else .ok (d.put place (.file bytes)) := by
  unfold writeBytes
  cases found : d.locate? path with
  | none => rfl
  | some place =>
    dsimp only
    rw [if_pos (isFolder_parent found)]

/-- The disks have the same folders, the same locks, and the same files but for one place. -/
structure Alike (place : String) (d e : Disk) : Prop where
  folders : e.isFolder = d.isFolder
  locked : e.locked = d.locked
  files : ∀ path, path ≠ place → e.fileAt? path = d.fileAt? path

/-- A disk is like itself with a file more. -/
theorem alike_put_file (free : d.isFolder place = false) (bytes : List UInt8) :
    Alike place (d.put place (.file bytes)) d where
  folders := (isFolder_put_file free).symm
  locked := rfl
  files path ne := by rw [fileAt?_put_file (ne_top_of_not_isFolder free), if_neg ne]

namespace Alike

theorem symm (h : Alike place d e) : Alike place e d :=
  ⟨h.folders.symm, h.locked.symm, fun path ne => (h.files path ne).symm⟩

theorem locate? (h : Alike place d e) (path : String) : e.locate? path = d.locate? path :=
  locate?_congr h.folders path

theorem at? (h : Alike place d e) (ne : path ≠ place) : e.at? path = d.at? path := by
  have folder : e.at? path = some .folder ↔ d.at? path = some .folder := by
    rw [← isFolder_iff, ← isFolder_iff, h.folders]
  have file (bytes : List UInt8) : e.at? path = some (.file bytes) ↔
      d.at? path = some (.file bytes) := by
    rw [← fileAt?_eq_some, ← fileAt?_eq_some, h.files path ne]
  cases there : d.at? path with
  | none =>
    cases other : e.at? path with
    | none => rfl
    | some x =>
      cases x with
      | file bytes => cases there.symm.trans ((file bytes).mp other)
      | folder => cases there.symm.trans (folder.mp other)
  | some x =>
    cases x with
    | file bytes => exact (file bytes).mpr there
    | folder => exact folder.mpr there

/-- What stands elsewhere is the same on both disks. -/
theorem find? (h : Alike place d e) (apart : placeOf path ≠ place) : e.find? path = d.find? path := by
  unfold Disk.find?
  rw [h.locate?]
  cases found : d.locate? path with
  | none => rfl
  | some there =>
    have ne : there ≠ place := by
      rw [locate?_eq_normal found]
      exact apart
    exact h.at? ne

theorem has (h : Alike place d e) (apart : placeOf path ≠ place) : e.has path = d.has path := by
  rw [Disk.has, Disk.has, h.find? apart]

theorem hasFile (h : Alike place d e) (apart : placeOf path ≠ place) :
    e.hasFile path = d.hasFile path := by
  rw [Disk.hasFile, Disk.hasFile, h.find? apart]

theorem readText? (h : Alike place d e) (apart : placeOf path ≠ place) :
    e.readText? path = d.readText? path := by
  rw [Disk.readText?, Disk.readText?, readBytes, readBytes, h.find? apart]

/-- The same file in the same place leaves disks alike. -/
theorem put_file (h : Alike place d e) {there : String} (free : d.isFolder there = false)
    (bytes : List UInt8) : Alike place (d.put there (.file bytes)) (e.put there (.file bytes)) where
  folders := by
    rw [isFolder_put_file free, isFolder_put_file (h.folders ▸ free), h.folders]
  locked := h.locked
  files path ne := by
    rw [fileAt?_put_file (ne_top_of_not_isFolder free),
      fileAt?_put_file (ne_top_of_not_isFolder free), h.files path ne]

/-- A write ends the same way on both disks, and leaves them alike. -/
theorem writeBytes (h : Alike place d e) (path : String) (bytes : List UInt8) :
    (∃ cause, d.writeBytes path bytes = .error cause ∧ e.writeBytes path bytes = .error cause) ∨
      ∃ d' e', d.writeBytes path bytes = .ok d' ∧ e.writeBytes path bytes = .ok e' ∧
        Alike place d' e' := by
  rw [writeBytes_eq, writeBytes_eq, h.locate?, h.locked, h.folders]
  cases d.locate? path with
  | none => exact .inl ⟨_, rfl, rfl⟩
  | some there =>
    dsimp only
    by_cases locked : d.locked.contains there
    · rw [if_pos locked, if_pos locked]
      exact .inl ⟨_, rfl, rfl⟩
    · rw [if_neg locked, if_neg locked]
      by_cases folder : d.isFolder there
      · rw [if_pos folder, if_pos folder]
        exact .inl ⟨_, rfl, rfl⟩
      · rw [if_neg folder, if_neg folder]
        exact .inr ⟨_, _, rfl, rfl, h.put_file (by simpa using folder) bytes⟩

end Alike

end Disk

end JsxAudit.Storage
