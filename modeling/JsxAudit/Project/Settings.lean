import JsxAudit.Config.Resolve
import JsxAudit.Data.EnvReader
import JsxAudit.Data.JsonReader
import JsxAudit.Data.TomlReader
import JsxAudit.Project.Root

/-!
The settings that apply to a path: configuration files and files of environment variables, looked
for from the path upwards.
-/

namespace JsxAudit.Project

open Config Data Storage

/-! ### Configuration -/

def jsonName : String := "a11y.config.json"

def tomlName : String := "pyproject.toml"

/-- The fields of a JSON file. -/
def readJsonConfig (d : Disk) (path : String) : Except ConfigError Fields :=
  match (d.readText? path).bind Json.read? with
  | some (.table fields) => .ok fields
  | some _ => .error (.notObject path)
  | none => .error (.unreadable path)

/-- The section of a document that is meant for this program. -/
def sectionOf (document : Fields) : Except ConfigError (Option Fields) :=
  match (Keyed.get? document "tool").filter Value.isTruthy with
  | none => .ok none
  | some (.table tools) =>
    match Keyed.get? tools "next-a11y" with
    | some (.table fields) => .ok (some fields)
    | _ => .ok none
  | some _ => .error (.shape .noFields)

/-- The section of a TOML file, if it has one. A file that is none counts as one without. -/
def readTomlConfig (d : Disk) (path : String) : Except ConfigError (Option Fields) :=
  match d.readBytes path with
  | .error _ => .ok none
  | .ok bytes =>
    match Text.decode? bytes with
    | none => .error (.shape .badText)
    | some text =>
      match Toml.read? text with
      | none => .error (.unparsable path)
      | some document => sectionOf document

/-- The configuration of the first of the folders that has one. -/
def configAmong (d : Disk) : List String → Except ConfigError Fields
  | [] => .ok []
  | folder :: rest =>
    let json := Path.join folder jsonName
    if d.has json then readJsonConfig d json
    else do
      match ← readTomlConfig d (Path.join folder tomlName) with
      | some fields => return fields
      | none => configAmong d rest

/-- The configuration that applies to a path; empty if there is none. -/
def configFor (d : Disk) (directory start : String) : Except ConfigError Fields :=
  configAmong d (Path.upward (startFolder d directory start))

/-! ### Environment -/

/-- Files of variables in a folder. Those of the first one count before those of the second. -/
def envNames : List String :=
  [".env.local", ".env"]

/-- The value that a reference to a name stands for: that of the environment, else the one bound
before, which is empty if it was taken away. -/
def referenced (env : Provider.Environment) (bound : Keyed (Option String)) (name : String) :
    Option String :=
  (env.lookup name).or ((Keyed.get? bound name).map (·.getD ""))

/-- What the bindings leave each name with. Of a name bound twice the last value counts. -/
def boundValues (env : Provider.Environment) (bindings : List Env.Binding) :
    Keyed (Option String) :=
  bindings.foldl (fun bound (name, value) =>
    Keyed.set name (value.map (Env.interpolated (referenced env bound))) bound) []

/-- The environment with the variables that it lacks. -/
def extended (env : Provider.Environment) (bindings : List Env.Binding) : Provider.Environment :=
  env ++ (boundValues env bindings).filterMap fun (name, value) =>
    if (env.lookup name).isSome then none else value.map fun value => (name, value)

/-- The environment with the variables of a file. -/
def loadEnvFile (d : Disk) (path : String) (env : Provider.Environment) :
    Except Fault Provider.Environment :=
  match d.readBytes path with
  | .error _ => .ok env
  | .ok bytes =>
    match Text.decode? bytes with
    | none => .error .badText
    | some text => .ok (extended env (Env.read (Text.withLineFeeds text)))

/-- The environment with the variables of some folders, up to the first that holds a package. -/
def loadEnvAmong (d : Disk) : List String → Provider.Environment →
    Except Fault Provider.Environment
  | [], env => .ok env
  | folder :: rest, env => do
    let env ← envNames.foldlM (fun env name => loadEnvFile d (Path.join folder name) env) env
    if d.has (Path.join folder "package.json") then return env else loadEnvAmong d rest env

/-- The environment that applies to a path. -/
def environmentFor (d : Disk) (directory start : String) (env : Provider.Environment) :
    Except Fault Provider.Environment :=
  loadEnvAmong d (Path.upward (startFolder d directory start)) env

end JsxAudit.Project
