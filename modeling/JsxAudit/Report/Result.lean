import JsxAudit.Report.Score
import JsxAudit.Generation.Request
import JsxAudit.Data.JsonPrinter

/-!
The outcome of a run, its report as a JSON document, and what the run says while it goes on.
-/

namespace JsxAudit.Report

open Audit Data Generation

/-! ### Notes -/

inductive NoteKind where
  | step | warning | error
  deriving DecidableEq, Repr

def NoteKind.name : NoteKind → String
  | .step => "step"
  | .warning => "warning"
  | .error => "error"

structure Note where
  kind : NoteKind
  text : String
  deriving DecidableEq, Repr

def Note.step (text : String) : Note := ⟨.step, text⟩

def Note.warning (text : String) : Note := ⟨.warning, text⟩

def Note.error (text : String) : Note := ⟨.error, text⟩

/-! ### The outcome -/

/-- What a run has found and done. -/
structure ScanResult where
  violations : List Violation
  filesScanned : Int
  elementsScanned : Int
  score : Int
  fixedCount : Int := 0
  previousScore : Option Int := none
  deriving DecidableEq, Repr

namespace ScanResult

variable (r : ScanResult)

/-- Number of violations that have a fix. -/
def fixableCount : Nat :=
  r.violations.countP (·.fix.isSome)

/-- Number of violations that have none. -/
def warningCount : Nat :=
  r.violations.countP (·.fix.isNone)

/-- How much the score has risen since the run before. -/
def scoreDelta : Option Int :=
  r.previousScore.map (r.score - ·)

def toFields : Fields :=
  [("violations", .list (r.violations.map Violation.toValue)),
    ("filesScanned", .int r.filesScanned), ("elementsScanned", .int r.elementsScanned), ("score", .int r.score),
    ("fixedCount", .int r.fixedCount)] ++
    r.previousScore.toList.map fun p => ("previousScore", .int p)

/-- The result with its badge and, if given, the tokens used. -/
def document (usage : Option TokenUsage) : Value :=
  .table (r.toFields ++ ("badge", .str (Badge.ofScore r.score).name) ::
    usage.toList.map fun u => ("tokens", .table
      [("input", .int u.input), ("output", .int u.output), ("total", .int u.total)]))

/-- The report as a JSON document. -/
def json (usage : Option TokenUsage) : String :=
  Json.write .unicode (r.document usage)

end ScanResult

end JsxAudit.Report
