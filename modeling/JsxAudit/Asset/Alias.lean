import JsxAudit.Data.JsonReader
import JsxAudit.Label.AltText
import JsxAudit.Storage.Disk

/-!
Names of modules that a project declares in `tsconfig.json`.

The file is JSON with comments and with commas before closing brackets. Both are taken out of the
text before it is read, wherever they stand. A table maps patterns to paths; the first pattern
that matches a module decides.
-/

namespace JsxAudit.Asset

open Data Storage

/-! ### Comments and commas -/

/-- What follows the end of a block comment. -/
def afterBlock? : List Char → Option (List Char)
  | [] => none
  | '*' :: '/' :: rest => some rest
  | _ :: rest => afterBlock? rest

/-- Text without block comments; `skip` characters belong to a comment already met. -/
def dropBlocks (skip : Nat) : List Char → List Char
  | [] => []
  | c :: rest =>
    match skip with
    | skip + 1 => dropBlocks skip rest
    | 0 =>
      if c = '/' then
        match rest with
        | '*' :: body =>
          match afterBlock? body with
          | some after => dropBlocks (rest.length - after.length) rest
          | none => c :: dropBlocks 0 rest
        | _ => c :: dropBlocks 0 rest
      else c :: dropBlocks 0 rest

/-- Number of characters of a line comment that begins here, blanks and empty lines in front of it
included. -/
def lineCommentLength (cs : List Char) : Nat :=
  let body := cs.dropWhile Text.isBlank
  match body with
  | '/' :: '/' :: rest => cs.length - (rest.dropWhile (· != '\n')).length
  | _ => 0

/-- Text without comments that fill a line; `atStart` says that a line begins. -/
def dropLineComments (skip : Nat) (atStart : Bool) : List Char → List Char
  | [] => []
  | c :: rest =>
    match skip with
    | skip + 1 => dropLineComments skip (c == '\n') rest
    | 0 =>
      match (if atStart then lineCommentLength (c :: rest) else 0) with
      | 0 => c :: dropLineComments 0 (c == '\n') rest
      | n + 1 => dropLineComments n (c == '\n') rest

/-- The next character that is no blank closes a table or a list. -/
def closesNext (cs : List Char) : Bool :=
  match cs.dropWhile Text.isBlank with
  | c :: _ => c == '}' || c == ']'
  | [] => false

/-- Text without commas in front of a closing bracket. -/
def dropCommas : List Char → List Char
  | [] => []
  | c :: rest => if c = ',' ∧ closesNext rest then dropCommas rest else c :: dropCommas rest

/-- The text that is left to be read. -/
def plainJson (s : String) : String :=
  String.ofList (dropCommas (dropLineComments 0 true (dropBlocks 0 s.toList)))

/-! ### The table -/

/-- A folder, and patterns with what they stand for, as seen from that folder. -/
structure AliasTable where
  folder : String
  patterns : Fields

def configName : String := "tsconfig.json"

/-- The table of a document in a folder. -/
def AliasTable.ofValue (root : String) (document : Value) : Except Fault AliasTable := do
  let options := ((document.field? "compilerOptions").filter Value.isTruthy).getD (.table [])
  match options with
  | .table fields =>
    let folder ← match (Keyed.get? fields "baseUrl").filter Value.isTruthy with
      | none => pure root
      | some (.str base) => pure (Path.resolve root base)
      | some _ => throw .wrongType
    match Keyed.get? fields "paths" with
    | some (.table patterns) => return ⟨folder, patterns⟩
    | _ => return ⟨folder, []⟩
  | _ => throw .noFields

/-- The table of a project. A file that cannot be read holds no patterns. -/
def AliasTable.read (d : Disk) (root : String) : Except Fault AliasTable :=
  match (d.readText? (Path.join root configName)).bind fun s => Json.read? (plainJson s) with
  | none => .ok ⟨root, []⟩
  | some document => AliasTable.ofValue root document

/-! ### Matching -/

/-- The first of the paths that a pattern stands for. -/
def firstMapping : Value → Except Fault Value
  | .list (v :: _) => .ok v
  | .str s => .ok (.str (String.ofList (s.toList.take 1)))
  | .table _ => .error .missingName
  | _ => .error .wrongType

/-- A pattern for all modules that begin alike: the beginning, its slash included. -/
def wildcard? (pattern : String) : Option String :=
  if Text.endsWith "/*" pattern then some (String.ofList pattern.toList.dropLast) else none

/-- The path that one pattern gives a module. -/
def mapped? (folder pattern module : String) (mappings : Value) : Except Fault (Option String) := do
  if !mappings.isTruthy then return none
  match wildcard? pattern with
  | some start =>
    match Text.after? start module with
    | none => return none
    | some rest =>
      match ← firstMapping mappings with
      | .str mapping => return some (Path.resolve folder ((wildcard? mapping).getD mapping ++ rest))
      | _ => throw .noFields
  | none =>
    if pattern = module then
      match ← firstMapping mappings with
      | .str mapping => return some (Path.resolve folder mapping)
      | _ => throw .wrongType
    else return none

/-- The path of the first pattern that matches. -/
def AliasTable.firstMatch (folder module : String) : Fields → Except Fault (Option String)
  | [] => .ok none
  | (pattern, mappings) :: rest => do
    match ← mapped? folder pattern module mappings with
    | some path => return some path
    | none => firstMatch folder module rest

/-- The path that a project gives a module. -/
def aliasPath? (d : Disk) (root module : String) : Except Fault (Option String) := do
  let table ← AliasTable.read d root
  AliasTable.firstMatch table.folder module table.patterns

end JsxAudit.Asset
