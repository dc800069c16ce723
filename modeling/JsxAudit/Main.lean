import JsxAudit.Cli.Run
import JsxAudit.Data.Moment
import JsxAudit.Storage.Change

/-!
The program. It reads the folders that a command can look at, carries out the command on what it
has read, prints, and writes back what has changed. It has no line to any service: every request
fails.
-/

namespace JsxAudit

open Storage

/-! ### Reading -/

/-- Folders whose files belong to tools. -/
def toolFolders : List String :=
  ["node_modules", ".git", ".next"]

/-- Read a file or folder and what is in it. Links to folders are not followed. -/
partial def readTree (path : String) (d : Disk) : IO Disk := do
  match ← (IO.FS.readBinFile path).toBaseIO with
  | .ok bytes => return d.put path (.file bytes.toList)
  | .error _ =>
    match ← (IO.FS.realPath path >>= fun real => real.readDir).toBaseIO with
    | .error _ => return d
    | .ok found =>
      found.foldlM (fun d entry => do
        let inner := Path.join path entry.fileName
        let real := (← IO.FS.realPath inner).toString
        if toolFolders.contains entry.fileName || real != inner then return d
        else readTree inner d) (d.put path .folder)

/-- Read the files of a folder that the settings of a project may stand in, and their folder. -/
def readSettings (folder : String) (d : Disk) : IO Disk := do
  let names := Project.envNames ++ [Project.jsonName] ++ Project.markers
  names.foldlM (fun d name => do
    let path := Path.join folder name
    match ← (IO.FS.readBinFile path).toBaseIO with
    | .ok bytes => return d.put path (.file bytes.toList)
    | .error _ => return d) (if folder = "/" then d else d.put folder .folder)

/-- Read what a command with a path can look at: the project that the path belongs to, and the
settings in the folders around it. -/
def readAround (directory start : String) (d : Disk) : IO Disk := do
  let target := Path.resolve directory start
  let d ← (Path.upward (Path.parent target)).foldlM (fun d folder => readSettings folder d) d
  let d ← readTree target d
  readTree (Project.rootOf d directory target) d

/-- Every word is read as a path too: those that are none lead nowhere. -/
def readAll (directory : String) (words : List String) : IO Disk := do
  let d ← readAround directory directory {}
  words.foldlM (fun d word => readAround directory word d) d

/-- The environment variables that the program knows. -/
def readEnvironment : IO Config.Provider.Environment := do
  let names := Config.Provider.all.filterMap (·.keyVariable?) ++ ["OLLAMA_BASE_URL"]
  let values ← names.mapM fun name => return (← IO.getEnv name).map (name, ·)
  return values.filterMap id

/-- The time at which a new file is written. -/
def readClock : IO Data.Moment := do
  let (_, path) ← IO.FS.createTempFile
  let written := (← path.metadata).modified
  IO.FS.removeFile path
  return { seconds := written.sec.toNat, micros := written.nsec.toNat / 1000 }

/-! ### Writing -/

/-- Write back what a command has changed. -/
def writeBack (before after : Disk) : IO Unit := do
  for (path, entry) in Disk.written before after do
    match entry with
    | .folder => IO.FS.createDirAll path
    | .file bytes => IO.FS.writeBinFile path ⟨bytes.toArray⟩
  for path in Disk.removed before after do
    IO.FS.removeFile path

/-- Print what a command has to say, and give its status. -/
def report (o : Cli.Outcome) : IO UInt32 := do
  IO.print o.out
  IO.eprint o.err
  match o.ending with
  | .status code => return code.toUInt32
  | .fault f =>
    IO.eprintln (match f with
      | .inl f => (Project.RunError.fault f).message
      | .inr e => (Project.RunError.disk e).message)
    return 1

end JsxAudit

open JsxAudit in
def main (words : List String) : IO UInt32 := do
  let directory := (← IO.currentDir).toString
  let disk ← readAll directory words
  let surroundings : Cli.Surroundings :=
    { directory, env := ← readEnvironment, now := (← readClock).text
      net := { reply := fun _ _ => .failed "no connection" } }
  let outcome := Cli.run surroundings words disk
  writeBack disk outcome.disk
  report outcome
