import JsxAudit.Asset.Alias
import JsxAudit.Text.Word

/-!
The files that modules name, and images that a module passes on.

A module is named by a path or by an alias. Its file may have a suffix that the name lacks, or be
the index of a folder. A file that gathers exports may name an image where it exports something.
-/

namespace JsxAudit.Asset

open Data Storage

/-! ### Files of modules -/

/-- Suffixes that the name of a module may lack. -/
def moduleSuffixes : List String :=
  [".ts", ".tsx", ".js", ".jsx"] ++ Label.imageSuffixes

/-- Files that stand for their folder. -/
def indexFiles : List String :=
  ["index.ts", "index.tsx", "index.js", "index.jsx"]

/-- The file or folder that a path without suffix means. -/
def probe? (d : Disk) (base : String) : Option String :=
  if d.has base && !d.hasFolder base then some base
  else
    (moduleSuffixes.map (base ++ ·) ++ indexFiles.map (Path.join base)).find? d.has

/-- The path that a module named in a file means, there or not. -/
def modulePath? (d : Disk) (root file module : String) : Except Fault (Option String) :=
  if module.toList.head? = some '.' then .ok (some (Path.beside file module))
  else aliasPath? d root module

/-- The file of a module named in a file. -/
def moduleFile? (d : Disk) (root file module : String) : Except Fault (Option String) := do
  return (← modulePath? d root file module).bind (probe? d)

/-! ### Exports that pass on -/

/-- A word begins or ends between two characters. -/
def isEdge (before after : Option Char) : Bool :=
  before.any Text.isWordChar != after.any Text.isWordChar

/-- The rest after blanks, of which there is at least one. -/
def afterBlanks? : List Char → Option (List Char)
  | c :: rest => if Text.isBlank c then some (rest.dropWhile Text.isBlank) else none
  | [] => none

/-- The characters in reverse end in the words `default as` and blanks. -/
def followsDefaultAs (reversed : List Char) : Bool :=
  let found := do
    let front ← afterBlanks? reversed
    let front ← Text.dropStart "sa".toList front
    let front ← afterBlanks? front
    Text.dropStart "tluafed".toList front
  match found with
  | some front => isEdge front.head? (some 'd')
  | none => false

/-- The name stands in the characters up to the closing brace, as a word of its own or exported
under that name. `reversed` are the characters before, up to and including the opening brace. -/
def namesExport (name : List Char) (reversed : List Char) : List Char → Bool
  | [] => false
  | c :: rest =>
    let here := match Text.dropStart name (c :: rest) with
      | some after => isEdge name.getLast? after.head? &&
          (isEdge reversed.head? name.head? || followsDefaultAs reversed)
      | none => false
    here || (c != '}' && namesExport name (c :: reversed) rest)

def isQuoteMark (c : Char) : Bool :=
  c == '"' || c == Char.ofNat 39

/-- The path in quotes after the word `from`. -/
def fromPath? (cs : List Char) : Option String := do
  let rest ← Text.dropStart "from".toList (cs.dropWhile Text.isBlank)
  match rest.dropWhile Text.isBlank with
  | [] => none
  | c :: rest =>
    let path := rest.takeWhile fun c => !isQuoteMark c
    if isQuoteMark c && !path.isEmpty && path.length < rest.length then some (String.ofList path)
    else none

/-- The path of an export in braces that has the name, if one begins here. -/
def exportPathAt? (name : List Char) (cs : List Char) : Option String := do
  let rest ← Text.dropStart "export".toList cs
  match rest.dropWhile Text.isBlank with
  | '{' :: body =>
    if namesExport name ['{'] body then
      match body.dropWhile (· != '}') with
      | _ :: after => fromPath? after
      | [] => none
    else none
  | _ => none

/-- The path of the first export that has the name. -/
def exportPath? (name : List Char) : List Char → Option String
  | [] => none
  | c :: rest => (exportPathAt? name (c :: rest)).or (exportPath? name rest)

/-- The image that a file exports under a name. -/
def exportedImage? (d : Disk) (file name : String) : Option String := do
  let content ← d.readText? file
  let path ← exportPath? name.toList content.toList
  if Label.isImagePath path then some (Path.beside file path) else none

/-! ### Images of modules -/

/-- The image that a module named in a file is, or exports under a name. -/
def imageOf? (d : Disk) (root file module : String) (name : Option String) :
    Except Fault (Option String) := do
  if Label.isImagePath module then moduleFile? d root file module
  else
    match name.filter (· != "") with
    | none => return none
    | some name => return (← moduleFile? d root file module).bind fun f => exportedImage? d f name

end JsxAudit.Asset
