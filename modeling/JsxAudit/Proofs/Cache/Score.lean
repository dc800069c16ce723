import JsxAudit.Cache.Score
import JsxAudit.Proofs.Data.JsonRoundTrip
import JsxAudit.Proofs.Storage.Places
import JsxAudit.Proofs.Text.Bytes

/-!
Storing a score.

A score that can be stored is one file in folders that are made for it (`write_eq_ok_iff`). Every
other file is left alone, any other score can be stored in its place (`Stored.again`), and what is
read afterwards is the score that has been stored (`Stored.read`).
-/

namespace JsxAudit.Cache.ScoreRecord

open Data Storage

variable {d made e : Disk} {folder place : String} {bytes : List UInt8}

/-- The disk with a score: folders for it, and one file at `place`. -/
structure Stored (folder place : String) (d made e : Disk) (bytes : List UInt8) : Prop where
  folders : d.makeFolders folder = .ok made
  writable : made.Writable (pathIn folder) place
  put : e = made.put place (.file bytes)

theorem write_eq_ok_iff {r : ScoreRecord} :
    r.write d folder = .ok e ↔ ∃ made place,
      Stored folder place d made e (Text.utf8 (Json.write .ascii r.toValue)) := by
  unfold write
  cases failed : d.makeFolders folder with
  | error cause =>
    constructor
    · intro h
      cases h
    · rintro ⟨made, place, stored⟩
      cases failed.symm.trans stored.folders
  | ok made =>
    change made.writeBytes _ _ = .ok e ↔ _
    rw [Disk.writeBytes_eq_ok_iff]
    constructor
    · rintro ⟨place, w, eq⟩
      exact ⟨made, place, failed, w, eq⟩
    · rintro ⟨made', place, stored⟩
      cases failed.symm.trans stored.folders
      exact ⟨place, stored.writable, stored.put⟩

theorem Stored.isFolder (s : Stored folder place d made e bytes) : e.isFolder = made.isFolder :=
  s.put ▸ Disk.isFolder_put_file s.writable.notFolder

/-- More folders stand than before. -/
theorem Stored.more (s : Stored folder place d made e bytes) (path : String)
    (h : d.isFolder path) : e.isFolder path :=
  s.isFolder ▸ (Disk.makeFolders_spec s.folders).folders path h

theorem Stored.locked (s : Stored folder place d made e bytes) : e.locked = d.locked := by
  rw [s.put, Disk.locked_put, (Disk.makeFolders_spec s.folders).locked]

theorem Stored.fileAt? (s : Stored folder place d made e bytes) (path : String) :
    e.fileAt? path = if path = place then some bytes else d.fileAt? path := by
  rw [s.put, Disk.fileAt?_put_file s.writable.ne_top, (Disk.makeFolders_spec s.folders).files]

theorem Stored.locate? (s : Stored folder place d made e bytes) :
    e.locate? (pathIn folder) = some place :=
  (Disk.locate?_congr s.isFolder _).trans s.writable.found

theorem Stored.tree (s : Stored folder place d made e bytes) (tree : d.IsTree) : e.IsTree :=
  s.put ▸ (tree.makeFolders s.folders).put_file s.writable

/-- After one score has been stored, any other can be stored in its place, also when other files
have been written since. -/
theorem Stored.later (s : Stored folder place d made e bytes) {after : Disk}
    (folders : after.isFolder = e.isFolder) (locked : after.locked = e.locked)
    (bytes' : List UInt8) :
    Stored folder place after after (after.put place (.file bytes')) bytes' where
  folders := Disk.makeFolders_again s.folders fun _ h => folders ▸ s.isFolder ▸ h
  writable := s.writable.congr (folders.trans s.isFolder) (locked.trans (by rw [s.put]; rfl))
  put := rfl

theorem Stored.again (s : Stored folder place d made e bytes) (bytes' : List UInt8) :
    Stored folder place e e (e.put place (.file bytes')) bytes' :=
  s.later rfl rfl bytes'

/-! ### Reading a score back -/

/-- The score can be written with as many digits as a reader takes. -/
def IsShort (r : ScoreRecord) : Prop :=
  (Nat.toDigits 10 r.score.natAbs).length ≤ Json.maxDigits

theorem plain_toValue {r : ScoreRecord} (short : r.IsShort) : Json.Plain r.toValue := by
  refine .table ?_ (by simp)
  intro field mem
  rcases List.mem_cons.mp mem with rfl | mem
  · exact .int short
  · rw [List.mem_singleton.mp mem]
    exact .str _

theorem ofValue_toValue (r : ScoreRecord) : ofValue r.toValue = .ok (some r) := rfl

/-- A score takes up a single level. -/
theorem tooDeep_write {r : ScoreRecord} (short : r.IsShort) (room : Nat) :
    Json.tooDeep room (Json.write .ascii r.toValue) = false := by
  have plain := plain_toValue short
  rw [Json.tooDeep_of_denotes (Json.denotes_write plain.exact) plain.short]
  simp [toValue, Json.depth, Json.depthFields]

/-- A score that has been stored is read back. -/
theorem Stored.read {r : ScoreRecord} (short : r.IsShort)
    (s : Stored folder place d made e (Text.utf8 (Json.write .ascii r.toValue))) (room : Nat) :
    ScoreRecord.read e folder room = .ok (some r) := by
  have plain := plain_toValue short
  have lines : Text.withLineFeeds (Json.write .ascii r.toValue) = Json.write .ascii r.toValue :=
    Text.withLineFeeds_of_not_mem (Json.not_mem_writeAt plain 0)
  have text : e.readText? (pathIn folder) = some (Json.write .ascii r.toValue) := by
    rw [Disk.readText?_of_locate? s.locate?, s.fileAt?, if_pos rfl, Option.bind_some,
      Text.decode?_utf8, Option.map_some, lines]
  unfold ScoreRecord.read
  rw [text]
  simp only [tooDeep_write short, Bool.false_eq_true, if_false, Json.read?_write plain]
  exact ofValue_toValue r

end JsxAudit.Cache.ScoreRecord
