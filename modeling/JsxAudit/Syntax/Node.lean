import JsxAudit.Syntax.Kind

/-!
Syntax trees.

A node has a kind, possibly a role in its parent, the byte offsets where it starts and stops, and
its children in order. `Node.WellFormed` says that children lie inside their parent, one after the
other. A `Site` is a node together with the nodes that hold it, the nearest first, so that
questions about surroundings need no links back.
-/

namespace JsxAudit.Syntax

inductive Node where
  | mk (kind : Kind) (role : Option Role) (start stop : Nat) (children : List Node)
  deriving Repr

namespace Node

def kind : Node → Kind
  | mk kind _ _ _ _ => kind

def role : Node → Option Role
  | mk _ role _ _ _ => role

/-- Byte offset of the first byte. -/
def start : Node → Nat
  | mk _ _ start _ _ => start

/-- Byte offset just past the last byte. -/
def stop : Node → Nat
  | mk _ _ _ stop _ => stop

def children : Node → List Node
  | mk _ _ _ _ children => children

/-- The node in another role. -/
def withRole (role : Role) : Node → Node
  | mk kind _ start stop children => mk kind (some role) start stop children

/-- Children that are not tokens. -/
def namedChildren (n : Node) : List Node :=
  n.children.filter (·.kind.isNamed)

/-- The first child in a role. -/
def child? (role : Role) (n : Node) : Option Node :=
  n.children.find? (·.role = some role)

/-! ### Size and shape -/

mutual

/-- The number of nodes, the node itself included. -/
def size : Node → Nat
  | mk _ _ _ _ children => 1 + sizeAll children

def sizeAll : List Node → Nat
  | [] => 0
  | n :: rest => size n + sizeAll rest

end

mutual

/-- Every node spans its children, which stand one after the other. -/
def WellFormed : Node → Prop
  | mk _ _ start stop children => start ≤ stop ∧ Ordered start stop children

/-- The nodes are well formed and follow each other between `start` and `stop`. -/
def Ordered (start stop : Nat) : List Node → Prop
  | [] => True
  | n :: rest => start ≤ n.start ∧ n.stop ≤ stop ∧ WellFormed n ∧ Ordered n.stop stop rest

end

@[simp] theorem sizeAll_nil : sizeAll [] = 0 := rfl

@[simp] theorem sizeAll_cons (n : Node) (rest : List Node) :
    sizeAll (n :: rest) = n.size + sizeAll rest := rfl

theorem size_eq (n : Node) : n.size = 1 + sizeAll n.children := by
  cases n
  rfl

theorem size_le_sizeAll {n : Node} {ns : List Node} (h : n ∈ ns) : n.size ≤ sizeAll ns := by
  induction ns with
  | nil => cases h
  | cons m rest ih =>
    rw [sizeAll_cons]
    rcases List.mem_cons.mp h with rfl | h
    · omega
    · have := ih h
      omega

theorem size_lt_of_mem_namedChildren {n m : Node} (h : m ∈ n.namedChildren) : m.size < n.size := by
  have := size_le_sizeAll (List.mem_filter.mp h).1
  rw [size_eq n]
  omega

/-! ### Wrappers -/

/-- The node inside any number of nodes of the kinds `p`: each time the first named child. -/
def unwrapThrough (p : Kind → Bool) (n : Node) : Node :=
  match h : n.namedChildren with
  | [] => n
  | inner :: _ =>
    have : inner.size < n.size := size_lt_of_mem_namedChildren (by simp [h])
    if p n.kind then inner.unwrapThrough p else n
  termination_by n.size

/-- The node inside any number of parentheses. -/
def unwrap (n : Node) : Node :=
  n.unwrapThrough (· = .parenthesized)

end Node

/-! ### Nodes in place -/

/-- A node and the nodes that hold it, the nearest first. -/
structure Site where
  node : Node
  above : List Node

namespace Site

/-- The site of the node that holds this one. -/
def parent? (s : Site) : Option Site :=
  match s.above with
  | [] => none
  | n :: rest => some ⟨n, rest⟩

/-- The sites of the children, in order. -/
def children (s : Site) : List Site :=
  s.node.children.map fun n => ⟨n, s.node :: s.above⟩

/-- The sites of the children that are not tokens. -/
def namedChildren (s : Site) : List Site :=
  s.node.namedChildren.map fun n => ⟨n, s.node :: s.above⟩

/-- The site of the first child in a role. -/
def child? (role : Role) (s : Site) : Option Site :=
  (s.node.child? role).map fun n => ⟨n, s.node :: s.above⟩

def sizeAll (sites : List Site) : Nat :=
  Node.sizeAll (sites.map (·.node))

theorem sizeAll_children_append (s : Site) (rest : List Site) :
    sizeAll (s.children ++ rest) < sizeAll (s :: rest) := by
  have append (xs ys : List Node) :
      Node.sizeAll (xs ++ ys) = Node.sizeAll xs + Node.sizeAll ys := by
    induction xs with
    | nil => simp
    | cons x xs ih => simp only [List.cons_append, Node.sizeAll_cons, ih]; omega
  have same : (s.children).map (·.node) = s.node.children := by
    simp [children, Function.comp_def]
  simp only [sizeAll, List.map_append, List.map_cons, append, same, Node.sizeAll_cons,
    Node.size_eq s.node]
  omega

/-- The sites reached from a stack of sites: each is followed by its children before the next one
on the stack. -/
def walk : List Site → List Site
  | [] => []
  | s :: rest => s :: walk (s.children ++ rest)
  termination_by stack => sizeAll stack
  decreasing_by exact sizeAll_children_append s rest

/-- The nodes below a site in document order. -/
def descendants (s : Site) : List Site :=
  walk s.children

/-- The nodes below a site that satisfy `p`, in document order. -/
def descendantsWhere (p : Kind → Bool) (s : Site) : List Site :=
  s.descendants.filter fun d => p d.node.kind

mutual

/-- A node and all nodes below it, each before its children. -/
def preorder (above : List Node) : Node → List Site
  | .mk kind role start stop children =>
    let n := .mk kind role start stop children
    ⟨n, above⟩ :: preorderAll (n :: above) children

def preorderAll (above : List Node) : List Node → List Site
  | [] => []
  | n :: rest => preorder above n ++ preorderAll above rest

end

end Site

end JsxAudit.Syntax
