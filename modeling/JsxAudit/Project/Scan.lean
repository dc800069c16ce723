import JsxAudit.Cache.Score
import JsxAudit.Generation.Service
import JsxAudit.Project.Check
import JsxAudit.Project.Selection
import JsxAudit.Report.Result
import JsxAudit.Resolution.Run

/-!
One run over a project: select, read, check, resolve, repair, and score.

A run without fixing changes nothing but the stored score. A run with fixing writes each changed
file once, and reports what is left in the new texts.
-/

namespace JsxAudit.Project

open Audit Cache Config Data Generation Report Resolution Storage

/-- How a run can fail. -/
inductive RunError where
  | config (e : ConfigError)
  | service (e : ServiceError)
  | noTarget (path : String)
  | unwritten (path : String) (cause : DiskError)
  | fault (f : Fault)
  | disk (e : DiskError)

/-- What the system says about a file that cannot be written. -/
def causeText : DiskError → String
  | .denied => "[Errno 13] Permission denied"
  | .missing => "[Errno 2] No such file or directory"
  | .isFolder => "[Errno 21] Is a directory"
  | .notFolder => "[Errno 20] Not a directory"
  | .taken => "[Errno 17] File exists"

/-- The faults that a run ends with without a message. -/
def RunError.asFault? : RunError → Option (Fault ⊕ DiskError)
  | .config (.shape f) | .fault f => some (.inl f)
  | .disk e => some (.inr e)
  | _ => none

/-- What is said about a failure. -/
def RunError.message : RunError → String
  | .config e => e.message
  | .service e => e.message
  | .noTarget path => "Cannot scan " ++ path ++ ": path does not exist"
  | .unwritten path cause => "Failed to write fixes to " ++ path ++ ": " ++ causeText cause
  | .fault _ => "a value has the wrong shape"
  | .disk cause => causeText cause

variable {σ : Type}

/-- What a run is told. -/
structure Scan (σ : Type) where
  /-- What reads the trees of source files. -/
  parser : Source.TreeParser
  directory : String
  target : String
  config : ResolvedConfig
  cacheFolder : String
  /-- What texts are asked from, if anything. -/
  services : Option (Services σ) := none
  icons : Label.IconClassifier := {}
  now : String
  /-- For how many levels of brackets there is room inside the outermost ones of a document. -/
  room : Nat := Json.usualRoom

/-- What a run goes along with. -/
structure Progress (σ : Type) where
  disk : Disk
  state : σ
  notes : List Note := []

/-- A part of a run. What it has done stays done if it fails. -/
abbrev Job (σ α : Type) := ExceptT RunError (StateM (Progress σ)) α

namespace Job

def say (n : Note) : Job σ Unit :=
  modify fun p => { p with notes := p.notes ++ [n] }

/-- A result, or the failure that it is. -/
def orFail {ε α : Type} (failure : ε → RunError) : Except ε α → Job σ α
  | .ok a => pure a
  | .error e => throw (failure e)

end Job

namespace Scan

/-- What has been found in the files before any fix. -/
structure Survey where
  files : List (String × Source.SourceFile)
  violations : List Violation

/-- Number of elements in the files. -/
def Survey.elementCount (s : Survey) : Nat :=
  s.files.foldl (fun n (_, f) => n + f.elements.length) 0

variable (t : Scan σ)

def rules : Rules :=
  rulesFor t.config t.icons

/-- Read and check the files at some paths. -/
def survey (d : Disk) (paths : List String) : Survey :=
  let files := readSources t.parser d paths
  { files, violations := checkAll t.rules (files.map (·.2)) }

/-- Read and check the selected files, and say which could not be read. -/
def surveyAll : Job σ Survey := do
  let d := (← get).disk
  let paths ← Job.orFail .fault
    (select d t.directory t.target t.config.included t.config.excluded)
  Job.say (.step ("🔍 Scanning " ++ toString paths.length ++ " file(s) in " ++ t.target))
  for path in unreadPaths t.parser d paths do
    Job.say (.warning ("Skipped " ++ path ++ ": could not be parsed"))
  return t.survey d paths

/-- The violations with their texts resolved, if there is a service and they need one. -/
def resolveTexts (files : List (String × Source.SourceFile)) (violations : List Violation) :
    Job σ (List Violation × TokenUsage) := do
  match t.services with
  | none => return (violations, {})
  | some services =>
    if violations.any needsResolution then
      let p ← get
      let (outcome, s) := resolveAll services files violations
        { state := p.state, disk := p.disk, cache := { folder := t.cacheFolder }, notes := p.notes }
      set ({ disk := s.disk, state := s.state, notes := s.notes } : Progress σ)
      let (resolved, usage) ← Job.orFail .fault outcome
      Job.say (.step ("🧮 Tokens used: " ++ toString usage.total))
      return (resolved, usage)
    else return (violations, {})

/-- Carry out the fixes of some violations: what is left of all violations, the number of fixes,
and the tokens they took. -/
def repair (found : Survey) : Job σ (List Violation × Nat × TokenUsage) := do
  let (fixable, usage) ← t.resolveTexts found.files (fixableOf t.config found.violations)
  let repaired ← Job.orFail (fun _ => .fault .badText) (repairedFiles t.parser found.files fixable)
  if repaired.isEmpty then return (found.violations, 0, usage)
  let (disk, unwritten) := writeAll repaired (← get).disk
  modify fun p => { p with disk }
  match unwritten with
  | some (path, cause) => throw (.unwritten path cause)
  | none =>
    let count := repaired.foldl (fun n r => n + r.applied) 0
    Job.say (.step ("🛠️ Applied " ++ toString count ++ " fix(es) in " ++
      toString repaired.length ++ " file(s)"))
    return (remaining t.parser t.rules found.violations repaired, count, usage)

/-- Keep the score of the run. -/
def storeScore (score : Int) : Job σ Unit := do
  let disk ← Job.orFail .disk
    (ScoreRecord.write { score, timestamp := t.now } (← get).disk t.cacheFolder)
  modify fun p => { p with disk }

/-- The whole run. -/
def run : Job σ (ScanResult × TokenUsage) := do
  if !(← get).disk.has (Path.join t.directory t.target) then throw (.noTarget t.target)
  let previous ← Job.orFail .fault (ScoreRecord.read (← get).disk t.cacheFolder t.room)
  let found ← t.surveyAll
  let (violations, fixedCount, usage) ←
    if t.config.fix then t.repair found else pure (found.violations, 0, {})
  let score := Report.score violations
  t.storeScore score
  return ({ violations, filesScanned := found.files.length
            elementsScanned := found.elementCount, score, fixedCount
            previousScore := previous.map (·.score) }, usage)

end Scan

end JsxAudit.Project
