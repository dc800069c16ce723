import JsxAudit.Syntax.Parse
import JsxAudit.Text.Path
import JsxAudit.Text.Utf8

/-!
Source files: a path, a text, its bytes and its syntax tree, with positions and the text of nodes.

Positions are lines and columns counted from one. Columns count characters, offsets count bytes.
-/

namespace JsxAudit.Source

open Syntax

/-- Reads the tree of a text, or refuses the text. -/
abbrev TreeParser := String → Option Node

/-- A text with its tree. -/
structure SourceFile where
  path : String
  text : String
  root : Node
  bytes : List UInt8 := Text.utf8 text
  bytes_eq : bytes = Text.utf8 text := by rfl

namespace SourceFile

/-- The file that a parser makes of a text. -/
def parseWith (parser : TreeParser) (path text : String) : Option SourceFile :=
  (parser text).map fun root => { path, text, root }

def parse (path text : String) : Option SourceFile :=
  parseWith Syntax.parse path text

/-- The last segment of the path. -/
def basename (f : SourceFile) : String :=
  Text.pathName f.path

def slashPath (f : SourceFile) : String :=
  Text.withSlashes f.path

/-- The whole tree in place. -/
def site (f : SourceFile) : Site :=
  ⟨f.root, []⟩

/-! ### Positions -/

/-- Number of line breaks. -/
def countBreaks (bytes : List UInt8) : Nat :=
  bytes.countP (· == 10)

/-- Number of characters that begin in the bytes. -/
def countChars (bytes : List UInt8) : Nat :=
  bytes.countP fun b => !Text.isContinuation b

/-- The bytes after the last line break. -/
def lastLine (bytes : List UInt8) : List UInt8 :=
  (bytes.reverse.takeWhile (· != 10)).reverse

/-- Line and column of a byte offset. Past the end of the text it is the position of the end. -/
def position (f : SourceFile) (offset : Nat) : Nat × Nat :=
  let before := f.bytes.take offset
  (countBreaks before + 1, countChars (lastLine before) + 1)

def nodePosition (f : SourceFile) (n : Node) : Nat × Nat :=
  f.position n.start

/-! ### Texts of nodes -/

/-- The text between two byte offsets; empty if they cut a character. -/
def textBetween (f : SourceFile) (start stop : Nat) : String :=
  (Text.decode? (Text.slice f.bytes start stop)).getD ""

def nodeText (f : SourceFile) (n : Node) : String :=
  f.textBetween n.start n.stop

/-- A text without its first and its last character. -/
def withoutEnds (s : String) : String :=
  String.ofList (s.toList.drop 1).dropLast

/-- The text of a string as written, or of a template that substitutes nothing. -/
def stringValue? (f : SourceFile) (n : Node) : Option String :=
  match n.kind with
  | .string => some (withoutEnds (f.nodeText n))
  | .templateString =>
    if n.namedChildren.any (·.kind = .templateSubstitution) then none
    else some (withoutEnds (f.nodeText n))
  | _ => none

/-- Number of nodes below the root. -/
def nodeCount (f : SourceFile) : Nat :=
  f.site.descendants.length

end SourceFile

end JsxAudit.Source
