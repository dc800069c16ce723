import JsxAudit.Config.Resolve
import JsxAudit.Repair.Apply
import JsxAudit.Rule.Registry
import JsxAudit.Storage.Disk

/-!
Checking and repairing the files of a project, each on its own.

What reads the tree of a text is given from outside.
-/

namespace JsxAudit.Project

open Audit Config Source Storage

/-! ### Rules -/

/-- Rules with what they are told. -/
abbrev Rules := List (Rule × RuleSettings)

/-- The rules that a configuration wants, in the order in which they report. -/
def rulesFor (c : ResolvedConfig) (icons : Label.IconClassifier) : Rules :=
  (Rule.all.filter fun r => c.isEnabled r.id r.type).map fun r =>
    (r, { options := some (c.rule r.id).options, locale := c.locale, icons })

/-- What the rules report about a file. -/
def check (rules : Rules) (f : SourceFile) : List Violation :=
  rules.flatMap fun (r, settings) => r.scan settings f

/-- What the rules report about some files. -/
def checkAll (rules : Rules) (files : List SourceFile) : List Violation :=
  files.flatMap (check rules)

/-! ### Files -/

/-- The source file at a path, if it can be read and parsed. -/
def readSource? (parser : TreeParser) (d : Disk) (path : String) : Option SourceFile :=
  (d.readText? path).bind (SourceFile.parseWith parser path)

/-- The source files at some paths, and the paths without one. -/
def readSources (parser : TreeParser) (d : Disk) (paths : List String) :
    List (String × SourceFile) :=
  paths.filterMap fun path => (readSource? parser d path).map fun f => (path, f)

def unreadPaths (parser : TreeParser) (d : Disk) (paths : List String) : List String :=
  paths.filter fun path => (readSource? parser d path).isNone

/-! ### Repairs -/

/-- A file whose text has changed, and how many fixes have changed it. -/
structure RepairedFile where
  path : String
  text : String
  applied : Nat

/-- The violations whose fixes are to be carried out. -/
def fixableOf (c : ResolvedConfig) (violations : List Violation) : List Violation :=
  violations.filter fun v => v.fix.isSome && (c.rule v.rule).level = .fix

/-- The names without those that come again later. -/
def firstOccurrences (names : List String) : List String :=
  names.foldl (fun seen name => if seen.contains name then seen else seen ++ [name]) []

/-- The file as its fixes leave it, if they change it. -/
def repaired? (parser : TreeParser) (violations : List Violation) (path : String)
    (f : SourceFile) : Except Repair.ApplyError (Option RepairedFile) := do
  let own := violations.filter fun v => v.filePath = path && v.fix.isSome
  let (text, applied) ← Repair.apply parser f own
  return if applied.isEmpty || text = f.text then none
    else some { path, text, applied := applied.length }

/-- All files that fixes change, in the order in which the violations name them. -/
def repairedFiles (parser : TreeParser) (files : List (String × SourceFile))
    (violations : List Violation) : Except Repair.ApplyError (List RepairedFile) := do
  let paths := firstOccurrences ((violations.filter (·.fix.isSome)).map (·.filePath))
  let found ← (paths.filterMap fun path => (files.lookup path).map fun f => (path, f)).mapM
    fun (path, f) => repaired? parser violations path f
  return found.filterMap id

/-- What is left after the repairs: the violations of the other files, and what the rules report
about the new texts, in the order of the paths. -/
def remaining (parser : TreeParser) (rules : Rules) (violations : List Violation)
    (repaired : List RepairedFile) : List Violation :=
  let untouched := violations.filter fun v => !(repaired.any (·.path = v.filePath))
  let sources := repaired.filterMap fun r => SourceFile.parseWith parser r.path r.text
  (untouched ++ checkAll rules sources).mergeSort fun a b => a.filePath ≤ b.filePath

/-- The disk with the repaired files, as far as they can be written, and the first that cannot. -/
def writeAll : List RepairedFile → Disk → Disk × Option (String × DiskError)
  | [], d => (d, none)
  | r :: rest, d =>
    match d.writeText r.path r.text with
    | .ok d => writeAll rest d
    | .error e => (d, some (r.path, e))

end JsxAudit.Project
