import JsxAudit.Proofs.Cache.Store
import JsxAudit.Proofs.Storage.Files
import Mathlib.Data.Finmap

/-!
A cache is a finite map.

`ResultCache.perform` carries out an operation on a cache and its file, and `EntryMap.perform` the
same operation on a finite map, for which opening the cache again is nothing at all. `Mirrors` ties
the two together: cache and file are in step, and the map has the same entries. Each operation keeps
it (`Mirrors.perform`), so that a sequence of operations has the same answers on both sides, whenever
the file can be written: `performAll_eq_map`.
-/

namespace JsxAudit.Cache

open Data Storage

/-! ### Operations -/

/-- What can be done with a cache. -/
inductive Operation where
  | set (key : String) (e : CacheEntry)
  | get (key : String)
  | count
  | clear
  /-- The cache is opened again in the same folder. -/
  | reopen

/-- What an operation answers. -/
inductive Reply where
  | done
  | entry (found : Option CacheEntry)
  | count (n : Nat)
  deriving DecidableEq

namespace ResultCache

/-- An operation on a cache and its disk. -/
def perform (c : ResultCache) (d : Disk) : Operation → Except DiskError (Reply × ResultCache × Disk)
  | .set key e => .ok (.done, c.set d key e)
  | .get key => .ok (.entry (c.get? d key), c.load d, d)
  | .count => .ok (.count (c.count d), c.load d, d)
  | .clear => (c.clear d).map fun after => (.done, after)
  | .reopen => .ok (.done, { folder := c.folder }, d)

/-- Operations one after the other. -/
def performAll (c : ResultCache) (d : Disk) :
    List Operation → Except DiskError (List Reply × ResultCache × Disk)
  | [] => .ok ([], c, d)
  | op :: rest => do
    let (reply, c, d) ← c.perform d op
    let (replies, c, d) ← performAll c d rest
    return (reply :: replies, c, d)

end ResultCache

/-- Entries as a finite map. -/
abbrev EntryMap := Finmap fun _ : String => CacheEntry

namespace EntryMap

/-- An operation on a finite map. -/
def perform (m : EntryMap) : Operation → Reply × EntryMap
  | .set key e => (.done, m.insert key e)
  | .get key => (.entry (m.lookup key), m)
  | .count => (.count m.keys.card, m)
  | .clear => (.done, ∅)
  | .reopen => (.done, m)

def performAll (m : EntryMap) : List Operation → List Reply × EntryMap
  | [] => ([], m)
  | op :: rest =>
    let (reply, m) := m.perform op
    let (replies, m) := performAll m rest
    (reply :: replies, m)

/-- The map of entries with distinct keys. -/
def ofEntries (entries : Entries) : EntryMap :=
  (entries.map fun (key, e) => (⟨key, e⟩ : Sigma fun _ : String => CacheEntry)).toFinmap

theorem lookup_ofEntries (entries : Entries) (key : String) :
    (ofEntries entries).lookup key = Keyed.get? entries key := by
  rw [ofEntries, Finmap.dlookup_list_toFinmap]
  induction entries with
  | nil => rfl
  | cons pair rest ih =>
    obtain ⟨k, e⟩ := pair
    rw [List.map_cons, Keyed.get?, List.lookup_cons]
    by_cases same : key = k
    · subst same
      simp
    · rw [List.dlookup_cons_ne _ _ same, ih, beq_eq_false_iff_ne.mpr same]
      rfl

end EntryMap

/-- The entry that has been set last under a key since the last clear, if there is one. Of the
operations the latest stands first. -/
def lastSet? (key : String) : List Operation → Option CacheEntry
  | [] => none
  | .set other e :: before => if key = other then some e else lastSet? key before
  | .clear :: _ => none
  | .get _ :: before | .count :: before | .reopen :: before => lastSet? key before

namespace EntryMap

theorem performAll_append (m : EntryMap) (ops : List Operation) (op : Operation) :
    (m.performAll (ops ++ [op])).2 = ((m.performAll ops).2.perform op).2 := by
  induction ops generalizing m with
  | nil => rfl
  | cons first rest ih => exact ih (m.perform first).2

/-- After operations on the empty map there is under each key what has been set last since the last
clear. -/
theorem lookup_performAll (ops : List Operation) (key : String) :
    (performAll ∅ ops).2.lookup key = lastSet? key ops.reverse := by
  induction ops using List.reverseRecOn with
  | nil => rfl
  | append_singleton before op ih =>
    rw [performAll_append, List.reverse_append, List.reverse_singleton, List.singleton_append]
    cases op with
    | set other e =>
      rw [lastSet?, ← ih]
      by_cases same : key = other
      · subst same
        simp [perform]
      · simp [perform, same, Finmap.lookup_insert_of_ne]
    | clear => rfl
    | get _ => exact ih
    | count => exact ih
    | reopen => exact ih

end EntryMap

/-! ### Caches and maps -/

/-- Cache and file are in step, and the map has the same entries. -/
structure Mirrors (m : EntryMap) (c : ResultCache) (d : Disk) : Prop where
  inStep : c.InStep d
  lookup : ∀ key, m.lookup key = c.get? d key

namespace Mirrors

variable {m : EntryMap} {c : ResultCache} {d : Disk}

/-- The keys of the map are as many as there are entries. -/
theorem card (h : Mirrors m c d) : m.keys.card = c.count d := by
  have keys : m.keys = ((c.entries d).map (·.1)).toFinset := by
    ext key
    rw [Finmap.mem_keys, ← Finmap.lookup_isSome, h.lookup, ResultCache.get?, Keyed.get?,
      List.mem_toFinset, List.mem_map, Option.isSome_iff_exists]
    constructor
    · rintro ⟨e, found⟩
      obtain ⟨before, after, eq, -⟩ := List.lookup_eq_some_iff.mp found
      exact ⟨(key, e), eq ▸ List.mem_append_right _ List.mem_cons_self, rfl⟩
    · rintro ⟨pair, mem, rfl⟩
      rw [← Option.isSome_iff_exists, Option.isSome_iff_ne_none, Ne, List.lookup_eq_none_iff]
      exact fun none => by simpa using none pair mem
  rw [keys, List.toFinset_card_of_nodup h.inStep.nodup, List.length_map, ResultCache.count]

/-- Each operation answers the same on both sides, and leaves the map with the entries of the
cache. -/
theorem perform (h : Mirrors m c d) (op : Operation) :
    ∃ c' d', c.perform d op = .ok ((m.perform op).1, c', d') ∧ Mirrors (m.perform op).2 c' d' := by
  cases op with
  | set key e =>
    refine ⟨(c.set d key e).1, (c.set d key e).2, rfl, h.inStep.set key e, fun key' => ?_⟩
    rw [ResultCache.get?_set, ← h.lookup]
    by_cases same : key' = key
    · subst same
      simp [EntryMap.perform]
    · simp [EntryMap.perform, same, Finmap.lookup_insert_of_ne]
  | get key =>
    refine ⟨_, _, ?_, h.inStep.load, h.lookup⟩
    rw [EntryMap.perform, h.lookup]
    rfl
  | count =>
    refine ⟨_, _, ?_, h.inStep.load, h.lookup⟩
    rw [EntryMap.perform, h.card]
    rfl
  | clear =>
    obtain ⟨c', d', cleared, empty, inStep⟩ := h.inStep.clear
    refine ⟨c', d', by rw [ResultCache.perform, cleared]; rfl, inStep, fun key => ?_⟩
    rw [ResultCache.get?, ResultCache.entries, empty]
    rfl
  | reopen =>
    generalize eq : ({ folder := c.folder } : ResultCache) = opened
    have fresh : opened.known = none := eq ▸ rfl
    have folder : opened.folder = c.folder := eq ▸ rfl
    have file : d.readText? opened.path = d.readText? c.path := by
      rw [ResultCache.path, ResultCache.path, folder]
    refine ⟨opened, d, by rw [← eq]; rfl,
      h.inStep.reopened file (.inl fresh) (h.inStep.canWrite.congr folder), fun key => ?_⟩
    rw [EntryMap.perform, h.lookup, ResultCache.get?, ResultCache.get?,
      h.inStep.entries_eq file (.inl fresh)]

/-- Operations one after the other answer the same on both sides. -/
theorem performAll (h : Mirrors m c d) (ops : List Operation) :
    ∃ c' d', c.performAll d ops = .ok ((m.performAll ops).1, c', d') ∧
      Mirrors (m.performAll ops).2 c' d' := by
  induction ops generalizing m c d with
  | nil => exact ⟨c, d, rfl, h⟩
  | cons op rest ih =>
    obtain ⟨c₁, d₁, first, mirrors⟩ := h.perform op
    obtain ⟨c₂, d₂, others, mirrors⟩ := ih mirrors
    refine ⟨c₂, d₂, ?_, mirrors⟩
    rw [ResultCache.performAll, first]
    change (do
      let (replies, c, d) ← c₁.performAll d₁ rest
      return (_ :: replies, c, d)) = _
    rw [others]
    rfl

/-- A cache that has just been opened has the entries of its file. -/
theorem of_fresh (fresh : c.known = none) (canWrite : c.CanWrite d) :
    Mirrors (EntryMap.ofEntries (c.stored d)) c d where
  inStep := ResultCache.inStep_of_fresh fresh canWrite
  lookup key := by
    rw [EntryMap.lookup_ofEntries, ResultCache.get?, ResultCache.entries_of_fresh fresh]

end Mirrors

/-- Whenever its file can be written, a cache answers every sequence of operations as the finite map
of the entries in its file does. In the end cache and file hold the entries of the map, as many as
there are keys. If there has been no file, there is under each key what has been set last since the
last clear, and nothing otherwise. Entries are read from a document as they have been written,
whatever characters they hold. -/
theorem performAll_eq_map {c : ResultCache} {d : Disk} (fresh : c.known = none)
    (canWrite : c.CanWrite d) (ops : List Operation) :
    let onMap := (EntryMap.ofEntries (c.stored d)).performAll ops
    (∃ c' d', c.performAll d ops = .ok (onMap.1, c', d') ∧
      (∀ key, c'.get? d' key = onMap.2.lookup key) ∧ c'.count d' = onMap.2.keys.card ∧
      c'.stored d' = c'.entries d' ∧
      (d.has c.path = false → ∀ key, c'.get? d' key = lastSet? key ops.reverse)) ∧
    ∀ entries : Entries, (entries.map (·.1)).Nodup →
      (Json.read? (ResultCache.document entries)).map Entries.ofValue = some entries := by
  intro onMap
  obtain ⟨c', d', performed, mirrors⟩ := (Mirrors.of_fresh fresh canWrite).performAll ops
  refine ⟨⟨c', d', performed, fun key => (mirrors.lookup key).symm, mirrors.card.symm,
    mirrors.inStep.stored, fun absent key => ?_⟩, fun entries nodup => ?_⟩
  · have unread : d.readText? c.path = none :=
      Disk.readText?_of_find?_none (by simpa [Disk.has] using absent)
    rw [← mirrors.lookup, ResultCache.stored_of_unread unread]
    exact EntryMap.lookup_performAll ops key
  · rw [(read?_document nodup).1, Option.map_some, ofValue_toValue]

/-- Quotes, backslashes, control characters and characters outside the basic plane are found again
after the cache has been opened again, and nothing is found after a clear. -/
theorem performAll_eq_map_reopened :
    let c : ResultCache := { folder := "/cache" }
    let e : CacheEntry := ⟨"\"\\\n\x01é😀", "m", "de", "img-alt", ""⟩
    let ops : List Operation :=
      [.set "😀\"" e, .set "k" e, .reopen, .get "😀\"", .count, .clear, .reopen, .get "k", .count]
    c.CanWrite {} ∧ ∃ c' d', c.performAll {} ops = .ok ([.done, .done, .done, .entry (some e),
      .count 2, .done, .done, .entry none, .count 0], c', d') := by
  intro c e ops
  have computed : (∃ made ∈ (Disk.makeFolders {} c.folder).toOption,
      made.Writable c.path "/cache/cache.json") ∧ Disk.readText? {} c.path = none ∧
      ((EntryMap.ofEntries []).performAll ops).1 = [.done, .done, .done, .entry (some e),
        .count 2, .done, .done, .entry none, .count 0] := by
    decide +kernel
  obtain ⟨⟨made, folders, writable⟩, unread, replies⟩ := computed
  have canWrite : c.CanWrite {} := ⟨made, _, eq_ok_of_toOption folders, writable⟩
  obtain ⟨⟨c', d', performed, -⟩, -⟩ := performAll_eq_map rfl canWrite ops
  rw [ResultCache.stored_of_unread unread, replies] at performed
  exact ⟨canWrite, c', d', performed⟩

end JsxAudit.Cache
