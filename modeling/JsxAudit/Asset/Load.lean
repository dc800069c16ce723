import JsxAudit.Asset.Expression
import JsxAudit.Asset.Fetch
import JsxAudit.Project.Root

/-!
The bytes of the image that an element shows.

An image is found on the web, on the disk, among the public files of the project, or beside the
source file. An image that cannot be found, read or fetched, or that is too large, is no image.
-/

namespace JsxAudit.Asset

open Data Http Source Storage

/-- Most bytes of an image. -/
def maxImageBytes : Nat := 5 * 1024 * 1024

/-- Where images are looked for. -/
structure Surroundings where
  disk : Disk
  net : Network
  /-- The working directory. -/
  directory : String
  limit : Nat := maxImageBytes

/-- What the source of an element says: a text as it is, or where an expression leads. -/
def sourceOf (d : Disk) (root : String) (e : Element) : Except Fault (Option String) :=
  match e.attribute? "src" with
  | none => .ok none
  | some a =>
    match a.stringValue?, a.expressionText? with
    | some text, _ => .ok (some text)
    | none, none => .ok none
    | none, some expression => do
      return some (((← image? d root e.file expression).filter (· != "")).getD expression)

/-- The file at a path unless it is too large. -/
def readLocal (d : Disk) (limit : Nat) (path : String) : Option (List UInt8) :=
  match d.readBytes path with
  | .ok bytes => if limit < bytes.length then none else some bytes
  | .error _ => none

/-- A text that begins like an address of the web. -/
def isRemote (source : String) : Bool :=
  (Text.after? "http://" source).isSome || (Text.after? "https://" source).isSome

/-- The folder of public files. -/
def publicFolder (root : String) : String :=
  Path.join root "public"

/-- The image that a source means in a file of a project. -/
def readImage (s : Surroundings) (file root source : String) (t : Trace) :
    Option (List UInt8) × Trace :=
  if isRemote source then fetch s.net s.limit source t
  else if Path.isAbsolute source && Label.isImagePath source && s.disk.has source then
    (readLocal s.disk s.limit source, t)
  else if Path.isAbsolute source then
    let rest := String.ofList (source.toList.dropWhile (· == '/'))
    (readLocal s.disk s.limit (Path.join (publicFolder root) rest), t)
  else if source.toList.head? = some '.' then
    (readLocal s.disk s.limit (Path.beside (Path.resolve s.directory file) source), t)
  else (none, t)

/-- The image of an element, or of `source` if the element does not say what it shows. -/
def load (s : Surroundings) (e : Element) (source : Option String) (t : Trace) :
    Except Fault (Option (List UInt8)) × Trace :=
  let root := Project.webRootOf s.disk s.directory e.file.path
  match sourceOf s.disk root e with
  | .error f => (.error f, t)
  | .ok own =>
    match (own.filter (· != "")).or (source.filter (· != "")) with
    | none => (.ok none, t)
    | some source =>
      let (image, t) := readImage s e.file.path root source t
      (.ok image, t)

end JsxAudit.Asset
