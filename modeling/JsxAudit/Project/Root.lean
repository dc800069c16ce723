import JsxAudit.Storage.Disk

/-!
The root of a project: the nearest folder that holds one of a project's files.
-/

namespace JsxAudit.Project

open Storage

/-- Files that stand at the root of a web project. -/
def webMarkers : List String :=
  ["package.json", "next.config.js", "next.config.mjs", "next.config.ts"]

/-- Files that stand at the root of a project of any kind. -/
def markers : List String :=
  webMarkers ++ ["pyproject.toml"]

/-- The nearest folder, from `folder` upwards, that holds one of the files; `folder` itself if
there is none. -/
def rootAbove (files : List String) (d : Disk) (folder : String) : String :=
  ((Path.upward folder).find? fun f => files.any fun name => d.has (Path.join f name)).getD folder

/-- The folder in which a search from a path begins: the folder of a file, or the path itself. -/
def startFolder (d : Disk) (directory start : String) : String :=
  let path := Path.resolve directory start
  if d.hasFile path then Path.parent path else path

/-- The root of the project that a path belongs to. -/
def rootOf (d : Disk) (directory start : String) : String :=
  rootAbove markers d (startFolder d directory start)

/-- The root of the web project that a source file belongs to. -/
def webRootOf (d : Disk) (directory file : String) : String :=
  rootAbove webMarkers d (Path.parent (Path.resolve directory file))

end JsxAudit.Project
