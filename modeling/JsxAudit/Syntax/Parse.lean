import JsxAudit.Syntax.Grammar.Statement

/-!
Parsing whole texts.

`Parser.step` answers one goal by the grammar; `Parser.solve` answers it with the rules nested up
to a given depth, and a text needs no more nesting than a fixed multiple of its length. `parse`
reads a whole text, which must be a program from its first to its last character, and puts the
comments into the tree: a comment belongs to the deepest node that begins before it and ends after
it.
-/

namespace JsxAudit.Syntax

namespace Parser

/-- The rule for a goal, given answers to the goals it asks for. -/
def step (self : Goal → Parser Node) : Goal → Parser Node
  | .statement => statement self
  | .block => block self
  | .expression => expression self
  | .assignment context => assignment self context
  | .binary least context => binary self least context
  | .unary => unary self
  | .newTarget => newTarget self
  | .pattern => pattern self
  | .type => type self
  | .element => element self

/-- A goal answered by rules nested at most `depth` times. -/
def solve : Nat → Goal → Parser Node
  | 0, _ => failure
  | depth + 1, goal => step (solve depth) goal

/-- The line that may open a script. -/
def hashBang : Parser (List Node) :=
  optionalNodes do
    let c ← cursor
    require ("#!".toList.isPrefixOf c.rest)
    set (c.skip (c.rest.takeWhile fun x => !endsLine x))
    return [← leafFrom .hashBang c.pos]

/-- The statements of a whole program. -/
def program (depth : Nat) : Parser (List Node) := do
  let first ← hashBang
  let statements ← many (solve depth .statement)
  trivia
  require (← cursor).rest.isEmpty
  return first ++ statements

end Parser

/-! ### Comments in the tree -/

namespace Node

/-- Nodes in the order of their start; of equal starts those of the first list come first. -/
def mergeByStart : List Node → List Node → List Node
  | [], ys => ys
  | x :: xs, [] => x :: xs
  | x :: xs, y :: ys =>
    if x.start ≤ y.start then x :: mergeByStart xs (y :: ys)
    else y :: mergeByStart (x :: xs) ys
  termination_by xs ys => xs.length + ys.length

/-- The comment lies between the first and the last part of the node. -/
def encloses (n comment : Node) : Bool :=
  n.start < comment.start && comment.stop ≤ n.stop && !n.children.isEmpty

mutual

/-- The node with comments that lie inside it in their places. -/
def placeComments (comments : List Node) : Node → Node
  | mk kind role start stop children =>
    if comments.isEmpty then mk kind role start stop children
    else
      let loose := comments.filter fun c => !children.any (·.encloses c)
      mk kind role start stop (mergeByStart (placeCommentsAll comments children) loose)

def placeCommentsAll (comments : List Node) : List Node → List Node
  | [] => []
  | n :: rest =>
    placeComments (comments.filter n.encloses) n :: placeCommentsAll comments rest

end

end Node

/-- The tree of a text of some characters, if the text is a program. -/
def parseChars (cs : List Char) : Option Node := do
  let length := cs.length
  let start : Cursor := { rest := cs, pos := 0, bound := length, comments := [] }
  let (statements, stop) ← (Parser.program (16 * length + 16)).run start
  let root := Node.mk .program none 0 stop.pos statements
  return root.placeComments stop.comments.reverse

def parse (text : String) : Option Node :=
  parseChars text.toList

end JsxAudit.Syntax
