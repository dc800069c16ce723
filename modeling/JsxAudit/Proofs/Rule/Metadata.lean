import JsxAudit.Proofs.Source.Scope
import JsxAudit.Proofs.Source.Inserted
import JsxAudit.Proofs.Source.Program
import JsxAudit.Rule.Page

/-!
The metadata of a page before and after something is inserted.

The search for the metadata goes down from a statement through a declaration, a variable and
wrappers to an object. If an offset is inside that object, the nodes that the search passes are
those that have the offset inside, one at each level (`Passed`), and all others are copied. So the
search finds the same object again with what is new in it, and nothing else that is read of the
statements changes: neither the names that they declare nor the directives among them.
-/

namespace JsxAudit.Rule

open Source Syntax

/-! ### The search for metadata -/

/-- The variables that statements export where they declare them. -/
def variablesIn (ns : List Node) : List Node :=
  ((((ns.filter (·.kind.isNamed)).filter (·.kind = .exportStatement)).filterMap
    (·.child? .declaration)).filter fun d => isVariableDeclaration d.kind).flatMap fun d =>
      d.namedChildren.filter (·.kind = .variableDeclarator)

/-- The object that a variable is set to, if it is called `metadata`. -/
def metadataOf? (f : SourceFile) (v : Node) : Option Node := do
  let value ← v.child? .value
  let inner := value.unwrapThrough isWrapper
  if isNamed f "metadata" v && inner.kind = .object then some inner else none

/-- The metadata that statements export. -/
def metadataIn? (f : SourceFile) (ns : List Node) : Option Node :=
  (variablesIn ns).findSome? (metadataOf? f)

section

variable {f : SourceFile} {n v : Node}

theorem metadataObject?_eq (f : SourceFile) :
    metadataObject? f = metadataIn? f f.root.children :=
  rfl

theorem metadataIn?_append (f : SourceFile) (xs ys : List Node) :
    metadataIn? f (xs ++ ys) = (metadataIn? f xs).or (metadataIn? f ys) := by
  have split : variablesIn (xs ++ ys) = variablesIn xs ++ variablesIn ys := by
    simp only [variablesIn, List.filter_append, List.filterMap_append, List.flatMap_append]
  rw [metadataIn?, split, List.findSome?_append]
  rfl

theorem metadataOf?_eq_some (h : metadataOf? f v = some n) :
    n.kind = .object ∧ ∃ value, v.child? .value = some value ∧
      value.unwrapThrough isWrapper = n := by
  unfold metadataOf? at h
  simp only [Option.bind_eq_bind, Option.bind_eq_some_iff] at h
  obtain ⟨value, given, found⟩ := h
  split at found
  next object =>
    cases found
    simp only [Bool.and_eq_true, decide_eq_true_eq] at object
    exact ⟨object.2, value, given, rfl⟩
  next => cases found

/-- Where the metadata stands: in the value of a variable of a declaration of an exported
statement. -/
theorem metadataIn?_eq_some {ns : List Node} (h : metadataIn? f ns = some n) :
    n.kind = .object ∧ ∃ e ∈ ns, e.kind = .exportStatement ∧ ∃ d, e.child? .declaration = some d ∧
      isVariableDeclaration d.kind = true ∧ ∃ v ∈ d.namedChildren, v.kind = .variableDeclarator ∧
        ∃ value, v.child? .value = some value ∧ value.unwrapThrough isWrapper = n := by
  obtain ⟨v, mem, found⟩ := List.exists_of_findSome?_eq_some h
  obtain ⟨object, inside⟩ := metadataOf?_eq_some found
  obtain ⟨d, exported, part⟩ := List.mem_flatMap.mp mem
  obtain ⟨exported, several⟩ := List.mem_filter.mp exported
  obtain ⟨e, statement, declared⟩ := List.mem_filterMap.mp exported
  obtain ⟨statement, kind⟩ := List.mem_filter.mp statement
  obtain ⟨part, declarator⟩ := List.mem_filter.mp part
  exact ⟨object, e, (List.mem_filter.mp statement).1, by simpa using kind, d, declared, several, v,
    part, by simpa using declarator, inside⟩

/-- The exported metadata is an object in the tree. -/
theorem holds_of_metadataObject? (h : metadataObject? f = some n) :
    f.Holds n ∧ n.kind = .object := by
  rw [metadataObject?_eq] at h
  obtain ⟨object, e, mem, -, d, declared, -, v, part, -, value, given, rfl⟩ :=
    metadataIn?_eq_some h
  have declaration := (SourceFile.holds_of_mem_children mem).child
    (Node.mem_children_of_child? declared)
  have outer : f.Holds value :=
    (declaration.namedChild part).child (Node.mem_children_of_child? given)
  exact ⟨Node.unwrapThrough_induction (fun _ held _ mem => held.namedChild mem) outer, object⟩

end

/-! ### The way to an offset -/

/-- A node with the offset inside that the search passes, and those that it then passes on its way
down to the object that has the offset inside. -/
inductive Passed (offset : Nat) : Node → Prop
  | object {n} : n.kind = .object → n.Covers offset → Passed offset n
  | wrapper {n c} : isWrapper n.kind = true → c ∈ n.namedChildren → Passed offset c →
      Passed offset n
  | declarator {n c} : n.kind = .variableDeclarator → n.child? .value = some c → Passed offset c →
      Passed offset n
  | declaration {n c} : isVariableDeclaration n.kind = true → c ∈ n.namedChildren →
      Passed offset c → Passed offset n
  | statement {n c} : n.kind = .exportStatement → n.child? .declaration = some c →
      Passed offset c → Passed offset n

/-- The kinds of nodes that the search passes. -/
def isPassed (k : Kind) : Bool :=
  k = .object || isWrapper k || k = .variableDeclarator || isVariableDeclaration k ||
    k = .exportStatement

namespace Passed

variable {offset : Nat} {n : Node}

theorem isPassed (h : Passed offset n) : isPassed n.kind = true := by
  cases h with
  | object kind _ => simp [Rule.isPassed, kind]
  | wrapper kind _ _ => simp [Rule.isPassed, kind]
  | declarator kind _ _ => simp [Rule.isPassed, kind]
  | declaration kind _ _ => simp [Rule.isPassed, kind]
  | statement kind _ _ => simp [Rule.isPassed, kind]

theorem exists_child (h : Passed offset n) (other : n.kind ≠ .object) :
    ∃ c ∈ n.children, Passed offset c := by
  cases h with
  | object kind _ => exact absurd kind other
  | wrapper _ mem inner => exact ⟨_, Node.mem_children_of_mem_namedChildren mem, inner⟩
  | declarator _ found inner => exact ⟨_, Node.mem_children_of_child? found, inner⟩
  | declaration _ mem inner => exact ⟨_, Node.mem_children_of_mem_namedChildren mem, inner⟩
  | statement _ found inner => exact ⟨_, Node.mem_children_of_child? found, inner⟩

/-- From a variable the search goes on to its value. -/
theorem exists_value (h : Passed offset n) (declarator : n.kind = .variableDeclarator) :
    ∃ c, n.child? .value = some c ∧ Passed offset c := by
  cases h with
  | object kind _ => simp [declarator] at kind
  | wrapper kind _ _ => simp [declarator, isWrapper] at kind
  | declarator _ given inner => exact ⟨_, given, inner⟩
  | declaration kind _ _ => simp [declarator, isVariableDeclaration] at kind
  | statement kind _ _ => simp [declarator] at kind

theorem covers (shaped : n.WellFormed) (h : Passed offset n) : n.Covers offset := by
  induction n using Node.children_induction with
  | step n ih =>
    by_cases object : n.kind = .object
    · cases h with
      | object _ inside => exact inside
      | wrapper kind _ _ => simp [object, isWrapper] at kind
      | declarator kind _ _ => simp [object] at kind
      | declaration kind _ _ => simp [object, isVariableDeclaration] at kind
      | statement kind _ _ => simp [object] at kind
    · obtain ⟨c, mem, inner⟩ := h.exists_child object
      have within := Node.within_of_mem_children shaped mem
      exact within.covers (ih c mem within.wellFormed inner)

theorem of_unwrapThrough (h : Passed offset (n.unwrapThrough isWrapper)) : Passed offset n := by
  induction n using Node.children_induction with
  | step n ih =>
    cases wraps : isWrapper n.kind with
    | false => rwa [Node.unwrapThrough_of_not wraps] at h
    | true =>
      cases found : n.namedChildren with
      | nil => rwa [Node.unwrapThrough_of_nil found] at h
      | cons c rest =>
        have mem : c ∈ n.namedChildren := by simp [found]
        rw [Node.unwrapThrough_of_cons found wraps] at h
        exact .wrapper wraps mem (ih c (Node.mem_children_of_mem_namedChildren mem) h)

/-- The search passes a statement on its way into the metadata. -/
theorem of_metadataIn? {f : SourceFile} {ns : List Node} (h : metadataIn? f ns = some n)
    (inside : n.Covers offset) : ∃ e ∈ ns, Passed offset e := by
  obtain ⟨object, e, mem, statement, d, declared, several, v, part, declarator, value, given,
    rfl⟩ := metadataIn?_eq_some h
  have inner : Passed offset value := of_unwrapThrough (.object object inside)
  exact ⟨e, mem, .statement statement declared
    (.declaration several part (.declarator declarator given inner))⟩

end Passed

/-! ### Nodes with something new -/

/-- The second node is the first one with something new at the offset, which is inside the node only
if the search passes the node on its way there. -/
structure Grown (f g : SourceFile) (offset : Nat) (isNew : List Node → Bool) (n n' : Node) :
    Prop where
  wellFormed : n.WellFormed
  inserted : Inserted f g offset isNew n n'
  passed : n.Covers offset → Passed offset n

namespace Grown

variable {f g : SourceFile} {offset : Nat} {isNew : List Node → Bool} {n n' : Node}

theorem of_copied (shaped : n.WellFormed) (outside : ¬ n.Covers offset) (h : Copied f g n n') :
    Grown f g offset isNew n n' :=
  ⟨shaped, (inserted_of_not_covers outside).mpr h, fun inside => absurd inside outside⟩

theorem all_of_copied {ns ns' : List Node} (shaped : ∀ n ∈ ns, n.WellFormed)
    (outside : ∀ n ∈ ns, ¬ n.Covers offset) (h : List.Forall₂ (Copied f g) ns ns') :
    List.Forall₂ (Grown f g offset isNew) ns ns' :=
  (rel_mem_zip h).imp fun _ _ ⟨zipped, copied⟩ =>
    of_copied (shaped _ (List.of_mem_zip zipped).1) (outside _ (List.of_mem_zip zipped).1) copied

/-- Nodes that correspond one by one, of which the search passes one, have something new in that one
only. -/
theorem all_of_passed {c : Node} {ns' : List Node} (shaped : n.WellFormed) (mem : c ∈ n.children)
    (way : Passed offset c) (h : InsertedAll f g offset isNew n.children ns') :
    List.Forall₂ (Grown f g offset isNew) n.children ns' := by
  have covers := way.covers (Node.within_of_mem_children shaped mem).wellFormed
  have each := forall₂_inserted (Node.ordered_children shaped) ⟨c, mem, covers⟩ h
  refine (rel_mem_zip each).imp fun d d' ⟨zipped, inserted⟩ => ?_
  have mem' := (List.of_mem_zip zipped).1
  refine ⟨(Node.within_of_mem_children shaped mem').wellFormed, inserted, fun inside => ?_⟩
  rwa [Node.eq_of_covers shaped mem' mem inside covers]

section

variable (h : Grown f g offset isNew n n')

include h

theorem kind : n'.kind = n.kind :=
  h.inserted.kind

theorem role : n'.role = n.role :=
  h.inserted.role

theorem copied_of_not_covers (outside : ¬ n.Covers offset) : Copied f g n n' :=
  (inserted_of_not_covers outside).mp h.inserted

/-- A node that the search never passes is copied. -/
theorem copied (other : isPassed n.kind = false) : Copied f g n n' :=
  h.copied_of_not_covers fun inside =>
    Bool.false_ne_true (other.symm.trans (h.passed inside).isPassed)

theorem children (other : n.kind ≠ .object) :
    List.Forall₂ (Grown f g offset isNew) n.children n'.children := by
  by_cases inside : n.Covers offset
  · obtain ⟨c, mem, way⟩ := (h.passed inside).exists_child other
    exact all_of_passed h.wellFormed mem way ((inserted_of_covers inside).mp h.inserted).2.2
  · have within {c : Node} (mem : c ∈ n.children) := Node.within_of_mem_children h.wellFormed mem
    exact all_of_copied (fun c mem => (within mem).wellFormed)
      (fun c mem covers => inside ((within mem).covers covers))
      (h.copied_of_not_covers inside).children

theorem namedChildren (other : n.kind ≠ .object) :
    List.Forall₂ (Grown f g offset isNew) n.namedChildren n'.namedChildren :=
  (rel_filter (p := (·.kind.isNamed)) (q := (·.kind.isNamed)) (h.children other)
    fun _ _ child => by rw [child.kind]).imp fun _ _ both => both.2

theorem child? (other : n.kind ≠ .object) (role : Role) :
    Option.Rel (Grown f g offset isNew) (n.child? role) (n'.child? role) :=
  rel_imp (rel_find? (p := (·.role = some role)) (q := (·.role = some role)) (h.children other)
    fun _ _ child => by rw [child.role]) fun _ _ both => both.2

theorem unwrapThrough :
    Grown f g offset isNew (n.unwrapThrough isWrapper) (n'.unwrapThrough isWrapper) := by
  refine Node.unwrapThrough_rel (fun _ _ => kind) (fun n n' both wraps => ?_) h
  refine both.namedChildren fun object => ?_
  rw [object] at wraps
  cases wraps

/-! ### What is declared -/

/-- Nothing new is in what declares names. -/
theorem boundNames : g.boundNames n' = f.boundNames n := by
  induction n using Node.children_induction generalizing n' with
  | step n ih =>
    -- what the search passes spells no name itself, and an object holds none that are declared
    cases search : isPassed n.kind with
    | false => exact (h.copied search).boundNames
    | true =>
      have none {k : Node} (kind : k.kind = n.kind) : k.spelling? = none := by
        unfold Node.spelling?
        rw [kind]
        split <;> simp_all [isPassed, isWrapper, isVariableDeclaration]
      rw [SourceFile.boundNames_of_none (none h.kind), SourceFile.boundNames_of_none (none rfl),
        h.kind]
      by_cases object : n.kind = .object
      · rw [object]
        exact (List.flatMap_eq_nil_iff.mpr fun _ _ => rfl).trans
          (List.flatMap_eq_nil_iff.mpr fun _ _ => rfl).symm
      · refine (flatMap_eq_of_rel (rel_mem_zip (h.children object)) fun c c' both => ?_).symm
        rw [both.2.role, ih c (List.of_mem_zip both.1).1 both.2]

theorem isDirective : n'.isDirective = n.isDirective := by
  by_cases statement : n.kind = .expressionStatement
  · exact (h.copied (by rw [statement]; rfl)).isDirective
  · simp [Node.isDirective, h.kind, statement]

/-! ### The same search -/

/-- The offset is not inside the name of a variable, as the search goes into the value. -/
theorem not_covers_name {m : Node} (declarator : n.kind = .variableDeclarator)
    (found : n.child? .name = some m) : ¬ m.Covers offset := by
  intro inside
  have mem := Node.mem_children_of_child? found
  have within := Node.within_of_mem_children h.wellFormed mem
  obtain ⟨c, given, inner⟩ := (h.passed (within.covers inside)).exists_value declarator
  have mem' := Node.mem_children_of_child? given
  have covers := inner.covers (Node.within_of_mem_children h.wellFormed mem').wellFormed
  -- one child would be in both roles
  obtain rfl := Node.eq_of_covers h.wellFormed mem mem' inside covers
  have asName : m.role = some .name := by simpa using List.find?_some found
  have asValue : m.role = some .value := by simpa using List.find?_some given
  rw [asName] at asValue
  cases asValue

/-- A variable keeps its name. -/
theorem isNamed (declarator : n.kind = .variableDeclarator) (name : String) :
    Rule.isNamed g name n' = Rule.isNamed f name n := by
  have named := h.child? (by rw [declarator]; decide) .name
  unfold Rule.isNamed
  cases found : n.child? .name with
  | none =>
    rw [found] at named
    generalize n'.child? .name = other at named
    cases named
    rfl
  | some m =>
    rw [found] at named
    generalize n'.child? .name = other at named
    obtain ⟨grown⟩ := named
    have outside := h.not_covers_name declarator found
    simp only [Option.any_some, (grown.copied_of_not_covers outside).text]

theorem metadataOf? (declarator : n.kind = .variableDeclarator) :
    Option.Rel (Grown f g offset isNew) (Rule.metadataOf? f n) (Rule.metadataOf? g n') := by
  unfold Rule.metadataOf?
  refine rel_bind (h.child? (by rw [declarator]; decide) .value) fun value value' both => ?_
  have inner := both.unwrapThrough
  simp only [h.isNamed declarator, inner.kind]
  split
  · exact .some inner
  · exact .none

end

section

variable {ns ns' : List Node} (h : List.Forall₂ (Grown f g offset isNew) ns ns')

include h

theorem variablesIn : List.Forall₂ (fun v v' => v.kind = .variableDeclarator ∧
    Grown f g offset isNew v v') (variablesIn ns) (variablesIn ns') := by
  have named := rel_filter (p := (·.kind.isNamed)) (q := (·.kind.isNamed)) h
    fun _ _ both => by rw [both.kind]
  have statements := rel_filter (p := (·.kind = .exportStatement))
    (q := (·.kind = .exportStatement)) named fun _ _ both => by rw [both.2.kind]
  have declared := rel_filterMap statements fun e e' both =>
    both.2.2.child? (by rw [decide_eq_true_iff.mp both.1]; decide) .declaration
  have several := rel_filter (p := (isVariableDeclaration ·.kind))
    (q := (isVariableDeclaration ·.kind)) declared fun _ _ both => by rw [both.kind]
  refine rel_flatMap several fun d d' both => ?_
  have parts := both.2.namedChildren fun object => by
    rw [object] at both
    exact absurd both.1 (by decide)
  refine (rel_filter (p := (·.kind = .variableDeclarator)) (q := (·.kind = .variableDeclarator))
    parts fun _ _ both => by rw [both.kind]).imp fun v v' both => ?_
  exact ⟨decide_eq_true_iff.mp both.1, both.2⟩

theorem metadataIn? :
    Option.Rel (Grown f g offset isNew) (Rule.metadataIn? f ns) (Rule.metadataIn? g ns') :=
  rel_findSome? (Grown.variablesIn h) fun _ _ both => both.2.metadataOf? both.1

theorem flatMap_boundNames : ns'.flatMap g.boundNames = ns.flatMap f.boundNames :=
  (flatMap_eq_of_rel h fun _ _ both => both.boundNames.symm).symm

theorem directives : g.directives ns' = f.directives ns := by
  have statements := rel_filter (p := (!·.kind.isRemark)) (q := (!·.kind.isRemark)) h
    fun _ _ both => by rw [both.kind]
  have leading := rel_takeWhile (p := (·.isDirective)) (q := (·.isDirective)) statements
    fun _ _ both => both.2.isDirective.symm
  refine (map_eq_of_rel leading fun n n' both => ?_).symm
  have statement : n.kind = .expressionStatement := by
    have directive := both.1
    simp only [Node.isDirective, Bool.and_eq_true, decide_eq_true_eq] at directive
    exact directive.1
  exact (both.2.2.copied (by rw [statement]; rfl)).text.symm

theorem any_endsPrologue : ns'.any (·.endsPrologue) = ns.any (·.endsPrologue) :=
  (any_eq_of_rel h fun _ _ both => by
    rw [Node.endsPrologue, Node.endsPrologue, both.kind, both.isDirective]).symm

end

end Grown

end JsxAudit.Rule
