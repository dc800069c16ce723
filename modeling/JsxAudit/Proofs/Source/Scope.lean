import JsxAudit.Proofs.Source.Copied
import Mathlib.Data.List.TakeWhile

/-!
What nodes declare, and which declaration a name refers to.

A name can be declared by an import, a variable or a pattern of several, a function, a class, an
enumeration or a name space, whether or not the declaration is exported (`boundNames`). Types have
names of their own and are left out. At the top level of a module such declarations stand behind the
directives that open it.

A name is looked up from the inside out: of the nodes above a place, the nearest that declares the
name is the one that binds it (`SourceFile.binder?`). What a node declares for what stands in it is
said by `scopeNames`. Parameters belong to the function, variables and functions of a block to the
block, and what is declared with `var` to the body of the function around it, where the name of a
parameter stands for the parameter still.

Seen from the binding node, `Unshadowed` says that no node on the way down to a place declares the
name again, and `binder?_eq_some_iff` says that this is all it takes.

Programs are modules, so that there is no `with`, whose names are not known before the program runs.
-/

namespace JsxAudit.Syntax

/-- Nodes of the kind declare what their children in the role declare. -/
def Kind.declaresThrough (k : Kind) (role : Option Role) : Bool :=
  match k with
  | .importStatement | .importClause | .namespaceImport | .namedImports | .importRequire
  | .ambientDeclaration | .lexicalDeclaration | .variableDeclaration
  | .objectPattern | .arrayPattern | .restPattern => true
  | .exportStatement => role = some .declaration
  | .variableDeclarator | .functionDeclaration | .generatorFunctionDeclaration | .functionSignature
  | .classDeclaration | .abstractClassDeclaration | .enumDeclaration | .moduleDeclaration
  | .importAlias => role = some .name
  | .pairPattern => role = some .value
  | .assignmentPattern | .objectAssignmentPattern => role = some .left
  | _ => false

/-- The node that spells the name, of nodes that declare a single one. -/
def Node.spelling? (n : Node) : Option Node :=
  match n.kind with
  | .identifier | .typeIdentifier | .shorthandPattern => some n
  | .member => some (n.unwrapThrough (· = .member))
  | .importSpecifier => (n.child? .alias).or (n.child? .name)
  | _ => none

/-- Comments, and the line that opens a script. -/
def Kind.isRemark (k : Kind) : Bool :=
  k = .comment || k = .htmlComment || k = .hashBang

/-- The node is a statement that is nothing but a string. -/
def Node.isDirective (n : Node) : Bool :=
  n.kind = .expressionStatement && n.children.any (·.kind = .string)

/-- No directive can stand behind the node. -/
def Node.endsPrologue (n : Node) : Bool :=
  !n.kind.isRemark && !n.isDirective

end JsxAudit.Syntax

namespace JsxAudit.Source

open Syntax

namespace SourceFile

variable (f : SourceFile)

mutual

/-- The names that a node declares where it stands. -/
def boundNames : Node → List String
  | .mk kind role start stop children =>
    match Node.spelling? (.mk kind role start stop children) with
    | some name => [f.nodeText name]
    | none => boundNamesAll kind children

def boundNamesAll (kind : Kind) : List Node → List String
  | [] => []
  | n :: ns => (if kind.declaresThrough n.role then boundNames n else []) ++ boundNamesAll kind ns

end

/-- The names that are declared at the top level, as often as they are. -/
def declaredNames : List String :=
  f.root.children.flatMap f.boundNames

/-- The directives before all other statements. -/
def directives (ns : List Node) : List String :=
  ((ns.filter (!·.kind.isRemark)).takeWhile (·.isDirective)).map f.nodeText

/-- The directives that open the file. -/
def prologue : List String :=
  f.directives f.root.children

variable {f} {n : Node}

theorem boundNamesAll_eq (kind : Kind) (ns : List Node) :
    f.boundNamesAll kind ns =
      ns.flatMap fun n => if kind.declaresThrough n.role then f.boundNames n else [] := by
  induction ns with
  | nil => rfl
  | cons n ns ih => rw [boundNamesAll, ih, List.flatMap_cons]

theorem boundNames_of_spelling? {name : Node} (h : n.spelling? = some name) :
    f.boundNames n = [f.nodeText name] := by
  cases n
  rw [boundNames, h]

theorem boundNames_of_none (h : n.spelling? = none) : f.boundNames n =
    n.children.flatMap fun c => if n.kind.declaresThrough c.role then f.boundNames c else [] := by
  cases n
  rw [boundNames, h]
  exact boundNamesAll_eq _ _

/-- What stands behind the first statement that is no directive makes no difference. -/
theorem directives_append {xs : List Node} (h : xs.any (·.endsPrologue) = true) (ys : List Node) :
    f.directives (xs ++ ys) = f.directives xs := by
  obtain ⟨n, mem, ends⟩ := List.any_eq_true.mp h
  simp only [Node.endsPrologue, Bool.and_eq_true, Bool.not_eq_true'] at ends
  have stays : n ∈ xs.filter (!·.kind.isRemark) := List.mem_filter.mpr ⟨mem, by rw [ends.1]; rfl⟩
  have stops : ((xs.filter (!·.kind.isRemark)).takeWhile (·.isDirective)).length ≠
      (xs.filter (!·.kind.isRemark)).length := by
    intro whole
    rw [← (List.takeWhile_prefix _).eq_of_length whole] at stays
    exact Bool.false_ne_true (ends.2.symm.trans (List.mem_takeWhile_imp stays))
  rw [directives, List.filter_append, List.takeWhile_append, if_neg stops]
  rfl

end SourceFile

/-! ### Copies -/

namespace Copied

variable {f f' : SourceFile} {n n' : Node}

theorem spelling? (h : Copied f f' n n') : Option.Rel (Copied f f') n.spelling? n'.spelling? := by
  unfold Node.spelling?
  rw [h.kind]
  split
  · exact .some h
  · exact .some h
  · exact .some h
  · exact .some (h.unwrapThrough _)
  · exact rel_or (h.child? .alias) (h.child? .name)
  · exact .none

/-- Copies declare the same names. -/
theorem boundNames (h : Copied f f' n n') : f'.boundNames n' = f.boundNames n := by
  induction n using Node.children_induction generalizing n' with
  | step n ih =>
    have spelled := h.spelling?
    cases eq : n.spelling? with
    | some name =>
      rw [eq] at spelled
      generalize eq' : n'.spelling? = other at spelled
      obtain ⟨copied⟩ := spelled
      rw [SourceFile.boundNames_of_spelling? eq, SourceFile.boundNames_of_spelling? eq',
        copied.text]
    | none =>
      rw [eq] at spelled
      generalize eq' : n'.spelling? = other at spelled
      cases spelled
      rw [SourceFile.boundNames_of_none eq, SourceFile.boundNames_of_none eq']
      refine (flatMap_eq_of_rel (rel_mem_zip h.children) fun c c' ⟨mem, child⟩ => ?_).symm
      rw [h.kind, child.role, ih c (List.of_mem_zip mem).1 child]

theorem isDirective (h : Copied f f' n n') : n'.isDirective = n.isDirective := by
  have strings : n'.children.any (·.kind = .string) = n.children.any (·.kind = .string) :=
    (any_eq_of_rel h.children fun c c' child => by rw [child.kind]).symm
  rw [Node.isDirective, Node.isDirective, h.kind, strings]

end Copied

end JsxAudit.Source

namespace JsxAudit.Syntax

/-- Statements that declare names for the block they stand in. -/
def Kind.declaresInBlock : Kind → Bool
  | .importStatement | .importAlias | .exportStatement | .ambientDeclaration | .lexicalDeclaration
  | .functionDeclaration | .generatorFunctionDeclaration | .functionSignature
  | .classDeclaration | .abstractClassDeclaration | .enumDeclaration | .moduleDeclaration => true
  | _ => false

/-- Nodes out of which no `var` reaches. -/
def Kind.holdsVariables : Kind → Bool
  | .functionDeclaration | .generatorFunctionDeclaration | .functionExpression
  | .generatorFunction | .arrowFunction | .methodDefinition | .staticBlock
  | .moduleDeclaration => true
  | _ => false

namespace Node

/-- The child is attached to the node, but what the node declares is not seen there. -/
def hides (n c : Node) : Bool :=
  match n.kind with
  | .methodDefinition | .typeMember => c.role = some .name || c.kind = .decorator
  | .classDeclaration | .abstractClassDeclaration | .classExpression => c.kind = .decorator
  | _ => false

/-- The lists of parameters of a function, a method or the type of one. -/
def parameterLists (n : Node) : List Node :=
  n.children.filter fun c => c.role = some .parameters || c.kind = .formalParameters

/-- What one of a list of parameters binds. -/
def boundPattern? (p : Node) : Option Node :=
  if p.kind = .identifier then some p else p.child? .pattern

/-- What the parameters of a function bind, or the only one without a list. -/
def parameterPatterns (n : Node) : List Node :=
  (n.child? .parameter).toList ++ n.parameterLists.flatMap (·.namedChildren.filterMap boundPattern?)

/-- An expression is to be evaluated for the part of a parameter. -/
def isComputed (n : Node) : Bool :=
  match n.kind with
  | .assignmentPattern | .objectAssignmentPattern | .computedName => true
  | .requiredParameter | .optionalParameter => (n.child? .value).isSome
  | _ => false

/-- No expressions stand among the parameters. -/
def hasSimpleParameters (n : Node) : Bool :=
  n.parameterLists.all fun ps => (Site.preorder [] ps).all fun s => !s.node.isComputed

end Node

end JsxAudit.Syntax

namespace JsxAudit.Source

open Syntax

namespace SourceFile

variable (f : SourceFile)

/-! ### What a node declares -/

def parameterNames (n : Node) : List String :=
  n.parameterPatterns.flatMap f.boundNames

/-- The names that statements declare for their block. -/
def blockNames (statements : List Node) : List String :=
  (statements.filter (·.kind.declaresInBlock)).flatMap f.boundNames

/-- The names that the node itself declares with `var`. -/
def ownVariables (n : Node) : List String :=
  match n.kind with
  | .variableDeclaration => f.boundNames n
  | .forInStatement =>
    if n.children.any (·.kind = .token "var") then (n.child? .left).toList.flatMap f.boundNames
    else []
  | _ => []

mutual

/-- The names that are declared with `var` in a node, but not in a function in it. -/
def variableNames : Node → List String
  | .mk kind role start stop children =>
    if kind.holdsVariables then []
    else f.ownVariables (.mk kind role start stop children) ++ variableNamesAll children

def variableNamesAll : List Node → List String
  | [] => []
  | n :: ns => variableNames n ++ variableNamesAll ns

end

/-- The names that the body of a function declares with `var`. To declare a parameter that way once
more declares nothing, unless the parameters have a scope of their own. -/
def hoistedNames (function body : Node) : List String :=
  if function.kind.holdsVariables then
    (f.variableNamesAll body.children).filter fun name =>
      !(function.hasSimpleParameters && (f.parameterNames function).contains name)
  else []

/-- The members of an enumeration, which know each other by name. -/
def memberNames (body : Node) : List String :=
  (body.namedChildren.map fun c => (c.child? .name).getD c).map f.nodeText

/-- The names that a node declares for all that stands in it, besides parameters. -/
def ownNames (s : Site) : List String :=
  match s.node.kind with
  | .program => f.blockNames s.node.children ++ f.variableNamesAll s.node.children
  | .statementBlock => f.blockNames s.node.children ++
      (s.above.head?.toList.flatMap fun function => f.hoistedNames function s.node)
  | .switchBody => s.node.children.flatMap fun part => f.blockNames part.children
  | .forStatement => f.blockNames s.node.children
  | .forInStatement =>
    if s.node.children.any fun c => c.kind = .token "const" || c.kind = .token "let" then
      (s.node.child? .left).toList.flatMap f.boundNames
    else []
  | .functionExpression | .generatorFunction
  | .classDeclaration | .abstractClassDeclaration | .classExpression =>
    (s.node.child? .name).toList.flatMap f.boundNames
  | .enumBody => f.memberNames s.node
  | _ => []

/-- The names that a node declares for what stands in its child `c`. -/
def scopeNames (s : Site) (c : Node) : List String :=
  if s.node.hides c then [] else f.parameterNames s.node ++ f.ownNames s

/-! ### Looking a name up -/

/-- The nearest of the nodes above `c` that declares the name for it. -/
def binderAbove? (name : String) (c : Node) : List Node → Option Site
  | [] => none
  | n :: above =>
    if name ∈ f.scopeNames ⟨n, above⟩ c then some ⟨n, above⟩ else binderAbove? name n above

/-- The node that binds a name at a place. -/
def binder? (name : String) (place : Site) : Option Site :=
  f.binderAbove? name place.node place.above

/-- The place is below the scope, and no node between the two declares the name for it. -/
inductive Unshadowed (name : String) (scope : Site) : Site → Prop
  | child (c : Node) : Unshadowed name scope ⟨c, scope.node :: scope.above⟩
  | deeper {s : Site} (c : Node) : Unshadowed name scope s → name ∉ f.scopeNames s c →
      Unshadowed name scope ⟨c, s.node :: s.above⟩

variable {f} {name : String} {scope place : Site}

theorem binder?_child (s : Site) (c : Node) : f.binder? name ⟨c, s.node :: s.above⟩ =
    if name ∈ f.scopeNames s c then some s else f.binder? name s := rfl

/-- Below a node that declares the name for everything in it, the name is bound by this node exactly
where no node between declares it again. -/
theorem binder?_eq_some_iff (declared : ∀ c, name ∈ f.scopeNames scope c) {inner : List Node}
    (below : place.above = inner ++ scope.node :: scope.above) :
    f.binder? name place = some scope ↔ f.Unshadowed name scope place := by
  constructor
  · intro bound
    obtain ⟨c, above⟩ := place
    induction inner generalizing c above with
    | nil =>
      obtain rfl : above = scope.node :: scope.above := below
      exact .child c
    | cons n inner ih =>
      obtain rfl : above = n :: (inner ++ scope.node :: scope.above) := below
      rw [binder?_child ⟨n, _⟩ c] at bound
      split at bound
      · -- The node itself would be the scope, but it stands below the scope.
        have same := congrArg (·.above.length) (Option.some.inj bound)
        simp only [List.length_append, List.length_cons] at same
        omega
      · rename_i other
        exact .deeper (s := ⟨n, inner ++ scope.node :: scope.above⟩) c (ih n _ rfl bound) other
  · intro unshadowed
    clear below
    induction unshadowed with
    | child c => rw [binder?_child, if_pos (declared c)]
    | deeper c _ other ih => rw [binder?_child, if_neg other, ih]

/-- A node declares its parameters for everything in it, if it hides them from nothing. -/
theorem mem_scopeNames_of_parameter {c : Node} (mem : name ∈ f.parameterNames scope.node)
    (open' : scope.node.hides c = false) : name ∈ f.scopeNames scope c := by
  rw [scopeNames, open']
  exact List.mem_append_left _ mem

end SourceFile

end JsxAudit.Source
