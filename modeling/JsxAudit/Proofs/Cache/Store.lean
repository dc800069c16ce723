import JsxAudit.Cache.Store
import JsxAudit.Proofs.Data.Keyed
import JsxAudit.Proofs.Data.JsonRoundTrip
import JsxAudit.Proofs.Storage.Files
import JsxAudit.Proofs.Text.Bytes

/-!
A cache that is closed and opened again.

Entries are read back as they have been written (`read?_document`). `InStep` says that a cache and
its file hold the same entries and that the file can be written. It holds of a cache that has just
been opened, loading keeps it, and so does storing an entry: `InStep.set` is why a text is still
there in the next run.
-/

namespace JsxAudit.Cache

open Data Storage

/-! ### Entries as documents -/

/-- Entries are what they have been turned into. -/
theorem ofValue_toValue (entries : Entries) : Entries.ofValue entries.toValue = entries := by
  unfold Entries.toValue Entries.ofValue
  dsimp only
  rw [List.filterMap_map]
  refine (List.filterMap_congr fun pair _ => ?_).trans List.filterMap_some
  rfl

theorem plain_entry (e : CacheEntry) : Json.Plain e.toValue := by
  refine .table (fun field mem => ?_) (by simp)
  simp only [List.mem_cons, List.not_mem_nil, or_false] at mem
  rcases mem with rfl | rfl | rfl | rfl | rfl <;> exact .str _

theorem plain_entries {entries : Entries} (nodup : (entries.map (·.1)).Nodup) :
    Json.Plain entries.toValue := by
  refine .table (fun field mem => ?_) ?_
  · obtain ⟨pair, -, rfl⟩ := List.mem_map.mp mem
    exact plain_entry pair.2
  · rw [List.map_map]
    exact nodup

/-- The entries of a document have distinct keys. -/
theorem nodup_ofValue {s : String} {document : Value} (h : Json.read? s = some document) :
    ((Entries.ofValue document).map (·.1)).Nodup := by
  cases document with
  | table fields =>
    have names := List.pairwise_map.mp (Json.namedOnce_of_read? h).nodup
    refine List.pairwise_map.mpr (names.filterMap _ ?_)
    rintro ⟨key, v⟩ ⟨key', v'⟩ ne entry found entry' found'
    cases v <;> cases found
    cases v' <;> cases found'
    exact ne
  | _ => exact List.nodup_nil

/-- A written document is read as the entries it was made of, and has no carriage returns. -/
theorem read?_document {entries : Entries} (nodup : (entries.map (·.1)).Nodup) :
    Json.read? (ResultCache.document entries) = some entries.toValue ∧
      Text.withLineFeeds (ResultCache.document entries) = ResultCache.document entries :=
  ⟨Json.read?_write (plain_entries nodup),
    Text.withLineFeeds_of_not_mem (Json.not_mem_writeAt (plain_entries nodup) 0)⟩

namespace ResultCache

variable {c : ResultCache} {d : Disk}

/-! ### Writing the file -/

/-- The folder of the cache can be made, and the file in it can be written. -/
def CanWrite (c : ResultCache) (d : Disk) : Prop :=
  ∃ made place, d.makeFolders c.folder = .ok made ∧ made.Writable c.path place

theorem CanWrite.congr {c' : ResultCache} (folder : c'.folder = c.folder) (h : c.CanWrite d) :
    c'.CanWrite d := by
  unfold CanWrite path at *
  rw [folder]
  exact h

theorem nodup_stored (c : ResultCache) (d : Disk) : ((c.stored d).map (·.1)).Nodup := by
  unfold stored
  split
  · rename_i document found
    obtain ⟨text, -, parsed⟩ := Option.bind_eq_some_iff.mp found
    exact nodup_ofValue parsed
  · exact List.nodup_nil

/-- The disk after writing: folders, and one file with the document of the entries. -/
theorem save_eq {made : Disk} {place : String} (folders : d.makeFolders c.folder = .ok made)
    (w : made.Writable c.path place) :
    c.save d = made.put place (.file (Text.utf8 (document (c.entries d)))) := by
  have written : made.writeText c.path (document (c.entries d)) =
      .ok (made.put place (.file (Text.utf8 (document (c.entries d))))) :=
    Disk.writeBytes_eq_ok_iff.mpr ⟨place, w, rfl⟩
  unfold save
  simp only [folders, written]

theorem canWrite_save (h : c.CanWrite d) : c.CanWrite (c.save d) := by
  obtain ⟨made, place, folders, w⟩ := h
  have same : (made.put place (.file (Text.utf8 (document (c.entries d))))).isFolder =
      made.isFolder := Disk.isFolder_put_file w.notFolder
  rw [save_eq folders w]
  exact ⟨_, place, Disk.makeFolders_again folders fun _ folder => same ▸ folder,
    w.congr same rfl⟩

/-- What has been written is read. -/
theorem stored_save (h : c.CanWrite d) (nodup : ((c.entries d).map (·.1)).Nodup) :
    c.stored (c.save d) = c.entries d := by
  obtain ⟨made, place, folders, w⟩ := h
  obtain ⟨read, lines⟩ := read?_document nodup
  have found : (c.save d).locate? c.path = some place := by
    rw [save_eq folders w, Disk.locate?_congr (Disk.isFolder_put_file w.notFolder)]
    exact w.found
  have file : (c.save d).fileAt? place = some (Text.utf8 (document (c.entries d))) := by
    rw [save_eq folders w, Disk.fileAt?_put_file w.ne_top, if_pos rfl]
  unfold stored
  rw [Disk.readText?_of_locate? found, file, Option.bind_some, Text.decode?_utf8, Option.map_some,
    lines, Option.bind_some, read]
  exact ofValue_toValue _

/-- What is stored depends on the text of the file alone. -/
theorem stored_congr {c' : ResultCache} {d' : Disk}
    (h : d'.readText? c'.path = d.readText? c.path) : c'.stored d' = c.stored d := by
  unfold stored
  rw [h]

/-- A file that cannot be read is an empty cache. -/
theorem stored_of_unread (h : d.readText? c.path = none) : c.stored d = [] := by
  unfold stored
  rw [h]
  rfl

/-- A cache that has just been opened has the entries of its file. -/
theorem entries_of_fresh (fresh : c.known = none) (d : Disk) : c.entries d = c.stored d := by
  rw [entries, fresh, Option.getD_none]

/-! ### Cache and file -/

/-- The cache and its file hold the same entries, each key once, and the file can be written. -/
structure InStep (c : ResultCache) (d : Disk) : Prop where
  nodup : ((c.entries d).map (·.1)).Nodup
  stored : c.stored d = c.entries d
  canWrite : c.CanWrite d

theorem inStep_of_fresh (fresh : c.known = none) (h : c.CanWrite d) : c.InStep d := by
  have same := entries_of_fresh fresh d
  exact ⟨same ▸ nodup_stored c d, same.symm, h⟩

/-- A cache that finds the file as another one has left it has the same entries, be it the same
cache or one that has just been opened. -/
theorem InStep.entries_eq {c' : ResultCache} {d' : Disk} (h : c.InStep d)
    (file : d'.readText? c'.path = d.readText? c.path) (cache : c'.known = none ∨ c' = c) :
    c'.entries d' = c.entries d := by
  have stored : c'.stored d' = c.entries d := (stored_congr file).trans h.stored
  rcases cache with fresh | rfl
  · rw [entries_of_fresh fresh, stored]
  · cases known : c'.known with
    | none => rw [entries, known, Option.getD_none, stored]
    | some _ => rw [entries, entries, known, Option.getD_some, Option.getD_some]

theorem InStep.reopened {c' : ResultCache} {d' : Disk} (h : c.InStep d)
    (file : d'.readText? c'.path = d.readText? c.path) (cache : c'.known = none ∨ c' = c)
    (canWrite : c'.CanWrite d') : c'.InStep d' := by
  have entries := h.entries_eq file cache
  exact ⟨entries ▸ h.nodup, (stored_congr file).trans (h.stored.trans entries.symm), canWrite⟩

theorem InStep.load (h : c.InStep d) : (c.load d).InStep d := by
  have stored : (c.load d).stored d = c.stored d := stored_congr rfl
  exact ⟨h.nodup, stored.trans h.stored, h.canWrite.congr rfl⟩

/-- Storing changes what the cache knows, and then writes it. -/
theorem set_eq (c : ResultCache) (d : Disk) (key : String) (e : CacheEntry) :
    c.set d key e =
      (let changed := { c with known := some (Keyed.set key e (c.entries d)) }
       (changed, changed.save d)) := rfl

/-- Storing an entry takes the cache and its file along together. -/
theorem InStep.set (h : c.InStep d) (key : String) (e : CacheEntry) :
    (c.set d key e).1.InStep (c.set d key e).2 := by
  rw [set_eq]
  generalize eq : { c with known := some (Keyed.set key e (c.entries d)) } = changed
  have holds (d' : Disk) : changed.entries d' = Keyed.set key e (c.entries d) := by
    subst eq; rfl
  have nodup (d' : Disk) : ((changed.entries d').map (·.1)).Nodup :=
    holds d' ▸ Keyed.nodup_set key e h.nodup
  have canWrite : changed.CanWrite d := by
    subst eq; exact h.canWrite
  have stored : changed.stored (changed.save d) = changed.entries (changed.save d) :=
    (stored_save canWrite (nodup d)).trans ((holds _).trans (holds _).symm)
  change changed.InStep (changed.save d)
  exact ⟨nodup _, stored, canWrite_save canWrite⟩

/-- A cache without entries is in step with a file that cannot be read. -/
theorem inStep_of_empty (empty : c.known = some []) (unread : d.readText? c.path = none)
    (h : c.CanWrite d) : c.InStep d := by
  have none : c.entries d = [] := by rw [entries, empty, Option.getD_some]
  exact ⟨none ▸ List.nodup_nil, (stored_of_unread unread).trans none.symm, h⟩

/-- Where the file can be written it can be removed, and then cache and file are empty. -/
theorem InStep.clear (h : c.InStep d) :
    ∃ c' d', c.clear d = .ok (c', d') ∧ c'.known = some [] ∧ c'.InStep d' := by
  obtain ⟨made, place, folders, w⟩ := h.canWrite
  generalize eq : { c with known := some [] } = cleared
  have empty : cleared.known = some [] := eq ▸ rfl
  have folder : cleared.folder = c.folder := eq ▸ rfl
  have path : cleared.path = c.path := by rw [ResultCache.path, ResultCache.path, folder]
  unfold ResultCache.clear
  obtain ⟨removed, absent⟩ | ⟨e, removed, found, without⟩ :=
    Disk.remove_of_writable (Disk.makeFolders_spec folders) w
  · refine ⟨cleared, d, by rw [removed, ← eq]; rfl, empty, ?_⟩
    exact inStep_of_empty empty (path ▸ Disk.readText?_of_find?_none absent)
      (h.canWrite.congr folder)
  · obtain ⟨made', folders', left⟩ := without.makeFolders folders
    refine ⟨cleared, e, by rw [removed, ← eq]; rfl, empty, ?_⟩
    exact inStep_of_empty empty (path ▸ without.readText? found)
      ⟨made', place, folder ▸ folders', path ▸ w.congr left.isFolder left.locked⟩

/-- The entry under a key after one has been stored. -/
theorem get?_set (c : ResultCache) (d : Disk) (key key' : String) (e : CacheEntry) :
    (c.set d key e).1.get? (c.set d key e).2 key' =
      if key' = key then some e else c.get? d key' :=
  Keyed.get?_set key key' e (c.entries d)

end ResultCache

end JsxAudit.Cache
