import JsxAudit.Storage.Disk

/-!
The difference between two disks: what stands at each path where something has changed.
-/

namespace JsxAudit.Storage.Disk

/-- Entries that are new or replaced, folders before what is in them. -/
def written (before after : Disk) : List (String × Entry) :=
  after.entries.filter fun (path, e) => before.entries.lookup path ≠ some e

/-- Paths at which nothing is left. -/
def removed (before after : Disk) : List String :=
  (before.entries.map (·.1)).filter fun path => (after.entries.lookup path).isNone

/-- Files that are new, replaced or gone, with what they hold afterwards. -/
def changedFiles (before after : Disk) : List (String × Option (List UInt8)) :=
  (written before after).filterMap (fun
    | (path, .file bytes) => some (path, some bytes)
    | (_, .folder) => none) ++
  (removed before after).map (·, none)

theorem lookup_of_mem {path : String} {e : Entry} {entries : List (String × Entry)}
    (ordered : InOrder entries) (mem : (path, e) ∈ entries) :
    entries.lookup path = some e := by
  induction entries with
  | nil => cases mem
  | cons head rest ih =>
    obtain ⟨q, x⟩ := head
    obtain ⟨before, ordered⟩ := List.pairwise_cons.mp ordered
    rcases List.mem_cons.mp mem with eq | mem
    · cases eq
      simp
    · have lt := before _ mem
      have ne : path ≠ q := fun eq => String.lt_irrefl path (by rw [← eq] at lt; exact lt)
      simpa [List.lookup_cons, beq_eq_false_iff_ne.mpr ne] using ih ordered mem

end JsxAudit.Storage.Disk
