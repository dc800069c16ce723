import JsxAudit.Text.Path
import JsxAudit.Text.Utf8

/-!
Files and folders, and their paths.

A path that starts with a slash is absolute. The normal form of an absolute path has neither idle
segments nor steps up; every file has one path in normal form.

A disk holds an entry under the normal form of each path there is, in the order of the paths. A
path with steps up leads through folders that exist. `at?_put` and `at?_erase` say what the
entries are after a change.
-/

namespace JsxAudit.Storage.Path

def isAbsolute (path : String) : Bool :=
  path.toList.head? == some '/'

/-- The absolute path of some segments. -/
def ofSegments (segments : List String) : String :=
  "/" ++ "/".intercalate segments

/-- The path without idle segments. Steps up stay; a path without any segment is a single dot. -/
def clean (path : String) : String :=
  let segments := Text.pathSegments path
  if isAbsolute path then ofSegments segments
  else if segments.isEmpty then "." else "/".intercalate segments

/-- The path `path` as seen from `base`. -/
def join (base path : String) : String :=
  if isAbsolute path then clean path else clean (base ++ "/" ++ path)

/-- The normal form of a path as seen from an absolute one. -/
def resolve (base path : String) : String :=
  ofSegments (Text.normalSegments (Text.splitOn '/' (join base path)))

/-- The folder of a path in normal form; the top is in itself. -/
def parent (path : String) : String :=
  ofSegments (Text.pathSegments path).dropLast

/-- The normal form of a path as seen from the folder of a file. -/
def beside (file path : String) : String :=
  resolve (parent file) path

/-- A list and what is left of it after each of its members in turn. -/
def remainders {α : Type} : List α → List (List α)
  | [] => [[]]
  | a :: rest => (a :: rest) :: remainders rest

/-- A path in normal form and the folders around it, the nearest first. -/
def upward (path : String) : List String :=
  (remainders (Text.pathSegments path).reverse).map fun segments => ofSegments segments.reverse

/-- What follows the folder in a path, if it lies below. -/
def below? (folder path : String) : Option String :=
  Text.after? (if folder = "/" then "/" else folder ++ "/") path

end JsxAudit.Storage.Path

namespace JsxAudit.Storage

/-- What stands at a path. -/
inductive Entry where
  | file (bytes : List UInt8)
  | folder
  deriving DecidableEq, Repr

/-- Why a file or folder cannot be used. -/
inductive DiskError where
  | missing | isFolder | notFolder | taken | denied
  deriving DecidableEq, Repr

/-- Entries in the order of their paths, each path once. -/
def InOrder (entries : List (String × Entry)) : Prop :=
  entries.Pairwise fun a b => a.1 < b.1

/-- Files and folders by path. The files in `locked` cannot be written. -/
structure Disk where
  entries : List (String × Entry) := []
  inOrder : InOrder entries := by exact List.Pairwise.nil
  locked : List String := []

namespace Disk

/-! ### Entries -/

/-- The entries with one more, or with one replaced. -/
def putEntry (path : String) (e : Entry) : List (String × Entry) → List (String × Entry)
  | [] => [(path, e)]
  | (q, x) :: rest =>
    if path < q then (path, e) :: (q, x) :: rest
    else if q = path then (path, e) :: rest
    else (q, x) :: putEntry path e rest

theorem mem_putEntry {path : String} {e : Entry} {entries : List (String × Entry)}
    {pair : String × Entry} (h : pair ∈ putEntry path e entries) :
    pair.1 = path ∨ pair ∈ entries := by
  induction entries with
  | nil =>
    rw [putEntry, List.mem_singleton] at h
    exact .inl (by rw [h])
  | cons head rest ih =>
    obtain ⟨q, x⟩ := head
    rw [putEntry] at h
    split at h
    · rcases List.mem_cons.mp h with rfl | h
      · exact .inl rfl
      · exact .inr h
    · split at h
      · rcases List.mem_cons.mp h with rfl | h
        · exact .inl rfl
        · exact .inr (List.mem_cons_of_mem _ h)
      · rcases List.mem_cons.mp h with rfl | h
        · exact .inr List.mem_cons_self
        · rcases ih h with h | h
          · exact .inl h
          · exact .inr (List.mem_cons_of_mem _ h)

theorem inOrder_putEntry (path : String) (e : Entry) {entries : List (String × Entry)}
    (h : InOrder entries) : InOrder (putEntry path e entries) := by
  induction entries with
  | nil => exact List.pairwise_singleton _ _
  | cons head rest ih =>
    obtain ⟨q, x⟩ := head
    obtain ⟨before, ordered⟩ := List.pairwise_cons.mp h
    rw [putEntry]
    split
    · rename_i lt
      refine List.pairwise_cons.mpr ⟨fun pair mem => ?_, h⟩
      rcases List.mem_cons.mp mem with rfl | mem
      · exact lt
      · exact String.lt_trans lt (before pair mem)
    · rename_i notLt
      split
      · rename_i eq
        exact List.pairwise_cons.mpr ⟨fun pair mem => eq ▸ before pair mem, ordered⟩
      · rename_i ne
        refine List.pairwise_cons.mpr ⟨fun pair mem => ?_, ih ordered⟩
        rcases mem_putEntry mem with eq | mem
        · rw [eq]
          rcases Decidable.em (q < path) with lt | ge
          · exact lt
          · exact absurd (String.le_antisymm (String.not_lt.mp notLt) (String.not_lt.mp ge)) ne
        · exact before pair mem

/-- The disk with an entry put at a path in normal form. -/
def put (d : Disk) (path : String) (e : Entry) : Disk :=
  { d with entries := putEntry path e d.entries, inOrder := inOrder_putEntry path e d.inOrder }

/-- The disk without the entry at a path. -/
def erase (d : Disk) (path : String) : Disk :=
  { d with entries := d.entries.filter (·.1 ≠ path)
           inOrder := List.Pairwise.filter _ d.inOrder }

/-- The entry at a path in normal form. The top is always a folder. -/
def at? (d : Disk) (path : String) : Option Entry :=
  if path = "/" then some .folder else d.entries.lookup path

/-- A folder stands at a path in normal form. -/
def isFolder (d : Disk) (path : String) : Bool :=
  d.at? path = some .folder

/-! ### Finding -/

/-- The path reached from some segments, going through folders only. -/
def walk (d : Disk) (reached : List String) : List String → Option (List String)
  | [] => some reached
  | s :: rest =>
    if d.isFolder (Path.ofSegments reached) then
      d.walk (if s = ".." then reached.dropLast else reached ++ [s]) rest
    else none

/-- The normal form of an absolute path whose folders are all there. -/
def locate? (d : Disk) (path : String) : Option String :=
  (d.walk [] (Text.pathSegments path)).map Path.ofSegments

/-- What stands at an absolute path. -/
def find? (d : Disk) (path : String) : Option Entry :=
  (d.locate? path).bind d.at?

def has (d : Disk) (path : String) : Bool :=
  (d.find? path).isSome

def hasFolder (d : Disk) (path : String) : Bool :=
  d.find? path = some .folder

def hasFile (d : Disk) (path : String) : Bool :=
  match d.find? path with
  | some (.file _) => true
  | _ => false

/-- Path and bytes of every file, in the order of the paths. -/
def files (d : Disk) : List (String × List UInt8) :=
  d.entries.filterMap fun
    | (path, .file bytes) => some (path, bytes)
    | (_, .folder) => none

/-! ### Reading -/

/-- The bytes of a file. -/
def readBytes (d : Disk) (path : String) : Except DiskError (List UInt8) :=
  match d.find? path with
  | some (.file bytes) => .ok bytes
  | some .folder => .error .isFolder
  | none => .error .missing

/-- The text of a file, unless there is no such file or it holds no text. -/
def readText? (d : Disk) (path : String) : Option String :=
  match d.readBytes path with
  | .ok bytes => (Text.decode? bytes).map Text.withLineFeeds
  | .error _ => none

/-! ### Writing -/

/-- The disk with a file of the given bytes, in a folder that is there. -/
def writeBytes (d : Disk) (path : String) (bytes : List UInt8) : Except DiskError Disk :=
  match d.locate? path with
  | none => .error .missing
  | some place =>
    if d.locked.contains place then .error .denied
    else if d.isFolder place then .error .isFolder
    else if d.isFolder (Path.parent place) then .ok (d.put place (.file bytes))
    else if (d.at? (Path.parent place)).isSome then .error .notFolder
    else .error .missing

def writeText (d : Disk) (path text : String) : Except DiskError Disk :=
  d.writeBytes path (Text.utf8 text)

/-- The disk with the folders on the way from some segments on. The last one may only be a folder
that is there or a new one. -/
def makeFoldersFrom (d : Disk) (reached : List String) : List String → Except DiskError Disk
  | [] => .ok d
  | s :: rest =>
    let next := if s = ".." then reached.dropLast else reached ++ [s]
    match d.at? (Path.ofSegments next) with
    | none => makeFoldersFrom (d.put (Path.ofSegments next) .folder) next rest
    | some .folder => makeFoldersFrom d next rest
    | some (.file _) => .error (if rest.isEmpty then .taken else .notFolder)

/-- The disk with a folder and all folders around it. -/
def makeFolders (d : Disk) (path : String) : Except DiskError Disk :=
  d.makeFoldersFrom [] (Text.pathSegments path)

/-- The disk without a file. It does not matter whether the file is there. -/
def remove (d : Disk) (path : String) : Except DiskError Disk :=
  match d.locate? path with
  | none => .ok d
  | some place =>
    match d.at? place with
    | some (.file _) => .ok (d.erase place)
    | some .folder => .error .isFolder
    | none =>
      match d.at? (Path.parent place) with
      | some (.file _) => .error .notFolder
      | _ => .ok d

/-! ### Entries after a change -/

theorem lookup_putEntry (path key : String) (e : Entry) {entries : List (String × Entry)}
    (h : InOrder entries) :
    (putEntry path e entries).lookup key =
      if key = path then some e else entries.lookup key := by
  induction entries with
  | nil =>
    by_cases hk : key = path <;>
      simp [putEntry, List.lookup_cons, hk, beq_eq_false_iff_ne.mpr]
  | cons head rest ih =>
    obtain ⟨q, x⟩ := head
    obtain ⟨_, ordered⟩ := List.pairwise_cons.mp h
    rw [putEntry]
    split
    · by_cases hk : key = path <;>
        simp [List.lookup_cons, hk, beq_eq_false_iff_ne.mpr]
    · split
      · rename_i eq
        subst eq
        by_cases hk : key = q <;> simp [List.lookup_cons, hk, beq_eq_false_iff_ne.mpr]
      · rename_i ne
        rw [List.lookup_cons, List.lookup_cons, ih ordered]
        by_cases hq : key = q
        · subst hq
          simp [ne]
        · simp [hq, beq_eq_false_iff_ne.mpr]

theorem at?_put (d : Disk) (path key : String) (e : Entry) (top : path ≠ "/") :
    (d.put path e).at? key = if key = path then some e else d.at? key := by
  by_cases hk : key = path
  · subst hk
    simp [at?, top, put, lookup_putEntry key key e d.inOrder]
  · simp [at?, put, lookup_putEntry path key e d.inOrder, hk]

theorem at?_erase (d : Disk) (path key : String) (h : key ≠ "/") :
    (d.erase path).at? key = if key = path then none else d.at? key := by
  simp only [at?, h, if_false, erase]
  induction d.entries with
  | nil => simp
  | cons head rest ih =>
    obtain ⟨q, x⟩ := head
    by_cases hq : q = path
    · subst hq
      by_cases hk : key = q
      · simpa [hk] using ih
      · simpa [hk, List.lookup_cons, beq_eq_false_iff_ne.mpr hk] using ih
    · by_cases hk : key = q
      · subst hk
        simp [hq]
      · simpa [hq, List.lookup_cons, beq_eq_false_iff_ne.mpr hk] using ih

end Disk

end JsxAudit.Storage
