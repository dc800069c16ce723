import JsxAudit.Data.JsonPrinter
import JsxAudit.Data.JsonReader
import JsxAudit.Storage.Disk

/-!
The score of the run before, kept in a file.
-/

namespace JsxAudit.Cache

open Data Storage

/-- A score and when it was reached. -/
structure ScoreRecord where
  score : Int
  timestamp : String
  deriving DecidableEq, Repr

namespace ScoreRecord

def fileName : String := "score.json"

def pathIn (folder : String) : String :=
  Path.join folder fileName

def toValue (r : ScoreRecord) : Value :=
  .table [("score", .int r.score), ("timestamp", .str r.timestamp)]

/-- The record that a document describes. A score that is no number counts as no record; only an
infinite one is a fault. -/
def ofValue (document : Value) : Except Fault (Option ScoreRecord) :=
  match document.field? "score" with
  | none => .ok none
  | some score =>
    match score.wholeNumber with
    | .ok n => .ok (some ⟨n, ((document.field? "timestamp").map Value.plain).getD ""⟩)
    | .error .tooLarge => .error .tooLarge
    | .error _ => .ok none

/-- The record in a folder. A file that cannot be read counts as none, but one that is nested beyond
the room for that is a fault. -/
def read (d : Disk) (folder : String) (room : Nat := Json.usualRoom) :
    Except Fault (Option ScoreRecord) :=
  match d.readText? (pathIn folder) with
  | none => .ok none
  | some text =>
    if Json.tooDeep room text then .error .endless
    else
      match Json.read? text with
      | none => .ok none
      | some document => ofValue document

/-- The disk with the record in a folder. -/
def write (r : ScoreRecord) (d : Disk) (folder : String) : Except DiskError Disk := do
  let made ← d.makeFolders folder
  made.writeText (pathIn folder) (Json.write .ascii r.toValue)

end ScoreRecord

end JsxAudit.Cache
