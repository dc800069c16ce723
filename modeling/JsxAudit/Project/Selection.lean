import JsxAudit.Data.Value
import JsxAudit.Storage.Disk
import JsxAudit.Text.Glob

/-!
The files that are looked at: those below a path that match a pattern and are not excluded.

Patterns come from the configuration and may turn out to be no texts. That is a fault, but only
when it shows, that is when every pattern before has failed to match some file.
-/

namespace JsxAudit.Project

open Data Storage

/-- The path matches one of the patterns. -/
def matchesSome (path : String) : List Value → Except Fault Bool
  | [] => .ok false
  | .str pattern :: rest =>
    if Text.Glob.matchesPattern path pattern then .ok true else matchesSome path rest
  | _ :: _ => .error .wrongType

/-- The path is wanted and not excluded. -/
def isSelected (included excluded : List Value) (path : String) : Except Fault Bool := do
  if ← matchesSome path included then return !(← matchesSome path excluded) else return false

/-- Path and path as seen from the folder, of every file below it. -/
def filesBelow (d : Disk) (folder : String) : List (String × String) :=
  d.files.filterMap fun (path, _) => (Path.below? folder path).map fun rest => (path, rest)

/-- The paths that satisfy a test which may fail. -/
def keep (test : String → Except Fault Bool) : List (String × String) → Except Fault (List String)
  | [] => .ok []
  | (path, relative) :: rest => do
    let wanted ← test relative
    let more ← keep test rest
    return if wanted then path :: more else more

/-- The selected files at or below a path. A file that is named itself need only match. -/
def select (d : Disk) (directory target : String) (included excluded : List Value) :
    Except Fault (List String) :=
  let root := Path.resolve directory target
  if d.hasFile root then do
    return if ← matchesSome (Text.pathName root) included then [root] else []
  else keep (isSelected included excluded) (filesBelow d root)

end JsxAudit.Project
