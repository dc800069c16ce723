import JsxAudit.Syntax.Node
import Mathlib.Data.List.Forall2
import Mathlib.Data.List.Pairwise

/-!
Spans of the nodes of a tree.

`wellFormed_iff` says what it takes for a tree to be well formed in terms of the children of a node.
`descendants_eq` says that walking a tree with a stack is going through it recursively. So the walk
comes to the nodes below a node and to no others (`mem_descendants_iff`), and, by induction on the
tree, all nodes of a tree lie inside it (`within_of_mem_preorder`) and come in the order of their
starts (`preorder_ascending`).
-/

namespace JsxAudit.Syntax

namespace Node

variable {n c : Node} {ns : List Node} {start stop : Nat}

/-- What holds of a node whenever it holds of its children holds of every node. -/
theorem children_induction {holds : Node → Prop}
    (step : ∀ n, (∀ c ∈ n.children, holds c) → holds n) (n : Node) : holds n := by
  generalize size_eq' : n.size = k
  induction k using Nat.strongRecOn generalizing n with
  | ind k ih =>
    refine step n fun c mem => ih c.size ?_ c rfl
    have := size_le_sizeAll mem
    rw [← size_eq', size_eq n]
    omega

/-! ### Well-formed trees -/

theorem start_le_stop (h : n.WellFormed) : n.start ≤ n.stop := by
  cases n
  exact h.1

/-- Nodes that follow each other, taken as a list. -/
theorem ordered_iff : Ordered start stop ns ↔
    (∀ n ∈ ns, start ≤ n.start ∧ n.stop ≤ stop ∧ n.WellFormed) ∧
      ns.Pairwise fun a b => a.stop ≤ b.start := by
  induction ns generalizing start with
  | nil => simp [Ordered]
  | cons n rest ih =>
    rw [Ordered, ih, List.pairwise_cons]
    constructor
    · rintro ⟨after, before, shaped, others, apart⟩
      have span := start_le_stop shaped
      refine ⟨fun m mem => ?_, fun m mem => (others m mem).1, apart⟩
      rcases List.mem_cons.mp mem with rfl | mem
      · exact ⟨after, before, shaped⟩
      · obtain ⟨later, inside⟩ := others m mem
        exact ⟨by omega, inside⟩
    · rintro ⟨all, first, apart⟩
      obtain ⟨after, before, shaped⟩ := all n List.mem_cons_self
      refine ⟨after, before, shaped, fun m mem => ?_, apart⟩
      exact ⟨first m mem, (all m (List.mem_cons_of_mem _ mem)).2⟩

/-- A node is well formed if its children are, lie inside it, and follow each other. -/
theorem wellFormed_iff : n.WellFormed ↔ n.start ≤ n.stop ∧
    (∀ c ∈ n.children, n.start ≤ c.start ∧ c.stop ≤ n.stop ∧ c.WellFormed) ∧
      n.children.Pairwise fun a b => a.stop ≤ b.start := by
  cases n with
  | mk kind role start stop children =>
    rw [WellFormed, ordered_iff]
    rfl

/-- A well-formed node whose span lies inside that of another one. -/
structure Within (c n : Node) : Prop where
  start_le : n.start ≤ c.start
  stop_le : c.stop ≤ n.stop
  wellFormed : c.WellFormed

theorem Within.refl (h : n.WellFormed) : Within n n :=
  ⟨Nat.le_refl _, Nat.le_refl _, h⟩

theorem Within.trans {inner : Node} (h : Within c n) (h' : Within inner c) : Within inner n :=
  ⟨Nat.le_trans h.start_le h'.start_le, Nat.le_trans h'.stop_le h.stop_le, h'.wellFormed⟩

theorem Within.span (h : Within c n) : c.start ≤ c.stop :=
  start_le_stop h.wellFormed

theorem within_of_mem_children (h : n.WellFormed) (mem : c ∈ n.children) : Within c n := by
  obtain ⟨start, stop, shaped⟩ := (wellFormed_iff.mp h).2.1 c mem
  exact ⟨start, stop, shaped⟩

/-- Two children of a node have nothing in common. -/
theorem apart_of_mem_children {a b : Node} (h : n.WellFormed) (first : a ∈ n.children)
    (second : b ∈ n.children) (ne : a ≠ b) : a.stop ≤ b.start ∨ b.stop ≤ a.start := by
  have either : n.children.Pairwise fun a b => a.stop ≤ b.start ∨ b.stop ≤ a.start :=
    (wellFormed_iff.mp h).2.2.imp Or.inl
  have : Std.Symm fun a b : Node => a.stop ≤ b.start ∨ b.stop ≤ a.start := ⟨fun _ _ => Or.symm⟩
  exact either.forall first second ne

theorem mem_children_of_mem_namedChildren (mem : c ∈ n.namedChildren) : c ∈ n.children :=
  (List.mem_filter.mp mem).1

theorem mem_children_of_child? {role : Role} (h : n.child? role = some c) : c ∈ n.children :=
  List.mem_of_find?_eq_some h

/-! ### Wrappers -/

section

variable {p : Kind → Bool}

theorem unwrapThrough_of_nil (h : n.namedChildren = []) : n.unwrapThrough p = n := by
  rw [unwrapThrough]
  split
  · rfl
  · rename_i eq
    cases h.symm.trans eq

theorem unwrapThrough_of_cons {c : Node} {rest : List Node} (h : n.namedChildren = c :: rest)
    (wraps : p n.kind = true) : n.unwrapThrough p = c.unwrapThrough p := by
  rw [unwrapThrough]
  split
  · rename_i eq
    cases h.symm.trans eq
  · rename_i eq
    cases h.symm.trans eq
    rw [if_pos wraps]

theorem unwrapThrough_of_not (other : p n.kind = false) : n.unwrapThrough p = n := by
  rw [unwrapThrough]
  split
  · rfl
  · simp [other]

end

/-- What passes from a node to its named children passes through wrappers. -/
theorem unwrapThrough_induction {holds : Node → Prop} {p : Kind → Bool}
    (step : ∀ n, holds n → ∀ c ∈ n.namedChildren, holds c) (h : holds n) :
    holds (n.unwrapThrough p) := by
  induction n using children_induction with
  | step n ih =>
    cases wraps : p n.kind with
    | false => rwa [unwrapThrough_of_not wraps]
    | true =>
      cases found : n.namedChildren with
      | nil => rwa [unwrapThrough_of_nil found]
      | cons c rest =>
        have mem : c ∈ n.namedChildren := by simp [found]
        rw [unwrapThrough_of_cons found wraps]
        exact ih c (mem_children_of_mem_namedChildren mem) (step n h c mem)

/-- What relates nodes and their named children relates what is inside their wrappers. -/
theorem unwrapThrough_rel {R : Node → Node → Prop} {p : Kind → Bool} {n' : Node}
    (kind : ∀ n n', R n n' → n'.kind = n.kind)
    (step : ∀ n n', R n n' → p n.kind = true → List.Forall₂ R n.namedChildren n'.namedChildren)
    (h : R n n') : R (n.unwrapThrough p) (n'.unwrapThrough p) := by
  induction n using children_induction generalizing n' with
  | step n ih =>
    cases wraps : p n.kind with
    | false =>
      rwa [unwrapThrough_of_not wraps, unwrapThrough_of_not (by rw [kind n n' h, wraps])]
    | true =>
      have inside := step n n' h wraps
      have wraps' : p n'.kind = true := by rw [kind n n' h, wraps]
      cases eq : n.namedChildren with
      | nil =>
        rw [eq, List.forall₂_nil_left_iff] at inside
        rwa [unwrapThrough_of_nil eq, unwrapThrough_of_nil inside]
      | cons c rest =>
        rw [eq, List.forall₂_cons_left_iff] at inside
        obtain ⟨c', rest', first, -, eq'⟩ := inside
        rw [unwrapThrough_of_cons eq wraps, unwrapThrough_of_cons eq' wraps']
        exact ih c (mem_children_of_mem_namedChildren (by simp [eq])) first

end Node

namespace Site

variable {n : Node} {above : List Node} {s t u : Site}

/-! ### Order of a walk -/

theorem preorderAll_eq (above : List Node) (ns : List Node) :
    preorderAll above ns = ns.flatMap (preorder above) := by
  induction ns with
  | nil => rfl
  | cons n rest ih => rw [preorderAll, ih, List.flatMap_cons]

theorem preorder_eq (above : List Node) (n : Node) :
    preorder above n = ⟨n, above⟩ :: n.children.flatMap (preorder (n :: above)) := by
  cases n
  rw [preorder, preorderAll_eq]
  rfl

/-- Walking with a stack goes through the tree of each site on it, one after the other. -/
theorem walk_eq (stack : List Site) :
    walk stack = stack.flatMap fun s => preorder s.above s.node := by
  induction stack using walk.induct with
  | case1 => simp [walk]
  | case2 s rest ih =>
    rw [walk, ih, List.flatMap_append, List.flatMap_cons, preorder_eq]
    simp [children, List.flatMap_map]

theorem descendants_eq (s : Site) :
    s.descendants = s.node.children.flatMap (preorder (s.node :: s.above)) := by
  rw [descendants, walk_eq, children, List.flatMap_map]

/-- The nodes of some kinds come in the order of going through the tree recursively. -/
theorem descendantsWhere_eq (s : Site) (p : Kind → Bool) :
    s.descendantsWhere p =
      (preorderAll (s.node :: s.above) s.node.children).filter fun t => p t.node.kind := by
  rw [descendantsWhere, descendants_eq, preorderAll_eq]

theorem preorder_eq_cons (s : Site) : preorder s.above s.node = s :: s.descendants := by
  rw [preorder_eq, descendants_eq]

/-! ### Nodes below a node -/

/-- The children of a node of a tree are nodes of the tree. -/
theorem child_mem_preorder {c : Node} (h : s ∈ preorder above n) (mem : c ∈ s.node.children) :
    ⟨c, s.node :: s.above⟩ ∈ preorder above n := by
  induction n using Node.children_induction generalizing above with
  | step n ih =>
    rw [preorder_eq] at h ⊢
    rcases List.mem_cons.mp h with rfl | h
    · refine List.mem_cons_of_mem _ (List.mem_flatMap.mpr ⟨c, mem, ?_⟩)
      rw [preorder_eq]
      exact List.mem_cons_self
    · obtain ⟨d, child, inside⟩ := List.mem_flatMap.mp h
      exact List.mem_cons_of_mem _ (List.mem_flatMap.mpr ⟨d, child, ih d child inside⟩)

/-- The nodes above a tree are above all its nodes. -/
theorem suffix_of_mem_preorder (h : s ∈ preorder above n) : above <:+ s.above := by
  induction n using Node.children_induction generalizing above with
  | step n ih =>
    rw [preorder_eq] at h
    rcases List.mem_cons.mp h with rfl | h
    · exact List.suffix_rfl
    · obtain ⟨c, child, inside⟩ := List.mem_flatMap.mp h
      exact (List.suffix_cons n above).trans (ih c child inside)

/-- A node that holds a node of a tree is a node of the tree, unless it holds the tree. -/
theorem mem_preorder_of_above {inner outer : List Node} {x : Node} (h : s ∈ preorder above n)
    (holds : s.above = inner ++ x :: outer) (deep : above.length ≤ outer.length) :
    ⟨x, outer⟩ ∈ preorder above n := by
  induction n using Node.children_induction generalizing above with
  | step n ih =>
    rw [preorder_eq] at h ⊢
    rcases List.mem_cons.mp h with rfl | h
    · have lengths := congrArg List.length holds
      simp only [List.length_append, List.length_cons] at lengths
      omega
    · obtain ⟨c, child, inside⟩ := List.mem_flatMap.mp h
      rcases Nat.lt_or_ge above.length outer.length with deeper | same
      · exact List.mem_cons_of_mem _ (List.mem_flatMap.mpr ⟨c, child, ih c child inside deeper⟩)
      · have upper : x :: outer <:+ s.above := ⟨inner, holds.symm⟩
        have lengths : (x :: outer).length = (n :: above).length :=
          congrArg Nat.succ (Nat.le_antisymm same deep)
        have eq := List.IsSuffix.eq_of_length (List.suffix_of_suffix_length_le upper
          (suffix_of_mem_preorder inside) (Nat.le_of_eq lengths)) lengths
        cases eq
        exact List.mem_cons_self

/-- The nodes of a well-formed tree are well formed and lie inside it. -/
theorem within_of_mem_preorder (shaped : n.WellFormed) (h : s ∈ preorder above n) :
    s.node.Within n := by
  induction n using Node.children_induction generalizing above with
  | step n ih =>
    rw [preorder_eq] at h
    rcases List.mem_cons.mp h with rfl | h
    · exact .refl shaped
    · obtain ⟨c, child, inside⟩ := List.mem_flatMap.mp h
      have within := Node.within_of_mem_children shaped child
      exact within.trans (ih c child within.wellFormed inside)

/-- The nodes of a well-formed tree come in the order of their starts. -/
theorem preorder_ascending (shaped : n.WellFormed) (above : List Node) :
    (preorder above n).Pairwise fun a b => a.node.start ≤ b.node.start := by
  induction n using Node.children_induction generalizing above with
  | step n ih =>
    obtain ⟨-, children, apart⟩ := Node.wellFormed_iff.mp shaped
    rw [preorder_eq, List.pairwise_cons, List.pairwise_flatMap]
    refine ⟨fun s inside => ?_, fun c child => ih c child (children c child).2.2 _, ?_⟩
    · obtain ⟨c, child, inside⟩ := List.mem_flatMap.mp inside
      have within := Node.within_of_mem_children shaped child
      exact (within.trans (within_of_mem_preorder within.wellFormed inside)).start_le
    · refine apart.imp_of_mem fun {a b} first second before s inside t inside' => ?_
      have left := within_of_mem_preorder (children a first).2.2 inside
      have right := within_of_mem_preorder (children b second).2.2 inside'
      have span := left.span
      have stop := left.stop_le
      have start := right.start_le
      omega

/-- The nodes below a node are its children and theirs. -/
theorem mem_descendants_of_mem_children {c : Node} (mem : c ∈ s.node.children) :
    ⟨c, s.node :: s.above⟩ ∈ s.descendants := by
  rw [descendants_eq, List.mem_flatMap]
  refine ⟨c, mem, ?_⟩
  rw [preorder_eq]
  exact List.mem_cons_self

theorem child_mem_descendants {c : Node} (h : t ∈ s.descendants) (mem : c ∈ t.node.children) :
    ⟨c, t.node :: t.above⟩ ∈ s.descendants := by
  rw [descendants_eq, List.mem_flatMap] at h ⊢
  obtain ⟨d, child, inside⟩ := h
  exact ⟨d, child, child_mem_preorder inside mem⟩

/-- A node is below the node that holds it and below everything that one is below. -/
inductive Below (s : Site) : Site → Prop
  | child {c : Node} : c ∈ s.node.children → Below s ⟨c, s.node :: s.above⟩
  | deeper {t : Site} {c : Node} :
      Below s t → c ∈ t.node.children → Below s ⟨c, t.node :: t.above⟩

theorem Below.trans (h : s.Below t) (inner : t.Below u) : s.Below u := by
  induction inner with
  | child mem => exact .deeper h mem
  | deeper _ mem ih => exact .deeper ih mem

/-- The nodes of a tree are its root and what is below the root. -/
theorem eq_or_below_of_mem_preorder (h : t ∈ preorder above n) :
    t = ⟨n, above⟩ ∨ Below ⟨n, above⟩ t := by
  induction n using Node.children_induction generalizing above with
  | step n ih =>
    rw [preorder_eq] at h
    rcases List.mem_cons.mp h with rfl | h
    · exact .inl rfl
    · obtain ⟨c, mem, inside⟩ := List.mem_flatMap.mp h
      have down : Below ⟨n, above⟩ ⟨c, n :: above⟩ := .child mem
      rcases ih c mem inside with rfl | below
      · exact .inr down
      · exact .inr (down.trans below)

/-- A walk comes to everything below the node that it begins at, and to nothing else. -/
theorem mem_descendants_iff : t ∈ s.descendants ↔ s.Below t := by
  constructor
  · intro h
    rw [descendants_eq] at h
    obtain ⟨c, mem, inside⟩ := List.mem_flatMap.mp h
    have down : s.Below ⟨c, s.node :: s.above⟩ := .child mem
    rcases eq_or_below_of_mem_preorder inside with rfl | below
    · exact down
    · exact down.trans below
  · intro h
    induction h with
    | child mem => exact mem_descendants_of_mem_children mem
    | deeper _ mem ih => exact child_mem_descendants ih mem

theorem mem_descendants_trans (h : t ∈ s.descendants) (inside : u ∈ t.descendants) :
    u ∈ s.descendants := by
  rw [mem_descendants_iff] at h inside ⊢
  exact h.trans inside

section

variable (shaped : s.node.WellFormed)

include shaped

theorem within_of_mem_descendants (h : t ∈ s.descendants) : t.node.Within s.node :=
  within_of_mem_preorder shaped (preorder_eq_cons s ▸ List.mem_cons_of_mem _ h)

theorem descendants_ascending :
    s.descendants.Pairwise fun a b => a.node.start ≤ b.node.start := by
  have ascending := preorder_ascending shaped s.above
  rw [preorder_eq_cons] at ascending
  exact (List.pairwise_cons.mp ascending).2

end

end Site

end JsxAudit.Syntax
