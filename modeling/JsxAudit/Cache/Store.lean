import JsxAudit.Data.JsonPrinter
import JsxAudit.Data.JsonReader
import JsxAudit.Data.Value
import JsxAudit.Digest.Sha256
import JsxAudit.Storage.Disk

/-!
The cache of generated texts: a file of entries, read when it is first needed and written after
every change. An entry is a generated text with what it was generated for.

A file that is missing or cannot be read is an empty cache, and a file that cannot be written is
left as it is. Keys are digests of what a text is generated for.
-/

namespace JsxAudit.Cache

open Data Storage

/-! ### Entries -/

/-- A generated text. -/
structure CacheEntry where
  value : String
  model : String
  locale : String
  rule : String
  generatedAt : String
  deriving DecidableEq, Repr

/-- Entries by key, in the order in which the keys were first stored. -/
abbrev Entries := Keyed CacheEntry

namespace CacheEntry

def toValue (e : CacheEntry) : Value :=
  .table [("value", .str e.value), ("model", .str e.model), ("locale", .str e.locale),
    ("rule", .str e.rule), ("generatedAt", .str e.generatedAt)]

/-- The text of a field, empty if the field is missing. -/
def fieldText (fields : Fields) (name : String) : String :=
  ((Keyed.get? fields name).map Value.plain).getD ""

/-- The entry that the fields of a table describe. Values that are no texts are shown as texts. -/
def ofFields (fields : Fields) : CacheEntry :=
  { value := fieldText fields "value", model := fieldText fields "model"
    locale := fieldText fields "locale", rule := fieldText fields "rule"
    generatedAt := fieldText fields "generatedAt" }

end CacheEntry

/-- Entries as data. -/
def Entries.toValue (entries : Entries) : Value :=
  .table (entries.map fun (key, e) => (key, e.toValue))

/-- The entries that a document holds. What is not a table is left out. -/
def Entries.ofValue : Value → Entries
  | .table fields => fields.filterMap fun
    | (key, .table entry) => some (key, CacheEntry.ofFields entry)
    | _ => none
  | _ => []

/-! ### The file -/

/-- Number of bytes of the digest that make a key. -/
def keyBytes : Nat := 8

/-- The key of some bytes: the beginning of their digest in hexadecimal. -/
def keyOf (bytes : List UInt8) : String :=
  Digest.hexText ((Digest.sha256 bytes).take keyBytes)

def keyOfText (s : String) : String :=
  keyOf (Text.utf8 s)

def fileName : String := "cache.json"

/-- A cache in a folder, with its entries once they have been read. -/
structure ResultCache where
  folder : String
  known : Option Entries := none

namespace ResultCache

def path (c : ResultCache) : String :=
  Path.join c.folder fileName

/-- The entries in the file. -/
def stored (c : ResultCache) (d : Disk) : Entries :=
  match (d.readText? c.path).bind Json.read? with
  | some document => Entries.ofValue document
  | none => []

/-- The entries: those read before, or those in the file. -/
def entries (c : ResultCache) (d : Disk) : Entries :=
  c.known.getD (c.stored d)

/-- The cache with its entries read. -/
def load (c : ResultCache) (d : Disk) : ResultCache :=
  { c with known := some (c.entries d) }

/-- The entry under a key. -/
def get? (c : ResultCache) (d : Disk) (key : String) : Option CacheEntry :=
  Keyed.get? (c.entries d) key

/-- The file of some entries. -/
def document (entries : Entries) : String :=
  Json.write .ascii (Entries.toValue entries)

/-- The disk after an attempt to write the entries. -/
def save (c : ResultCache) (d : Disk) : Disk :=
  match d.makeFolders c.folder with
  | .error _ => d
  | .ok made =>
    match made.writeText c.path (document (c.entries d)) with
    | .error _ => made
    | .ok written => written

/-- Store an entry under a key. -/
def set (c : ResultCache) (d : Disk) (key : String) (e : CacheEntry) : ResultCache × Disk :=
  let changed := { c with known := some (Keyed.set key e (c.entries d)) }
  (changed, changed.save d)

/-- Forget all entries and remove the file. -/
def clear (c : ResultCache) (d : Disk) : Except DiskError (ResultCache × Disk) :=
  (d.remove c.path).map fun d => ({ c with known := some [] }, d)

/-- Number of bytes of the file. -/
def fileSize (c : ResultCache) (d : Disk) : Nat :=
  match d.readBytes c.path with
  | .ok bytes => bytes.length
  | .error _ => 0

/-- Number of entries. -/
def count (c : ResultCache) (d : Disk) : Nat :=
  (c.entries d).length

end ResultCache

end JsxAudit.Cache
