import JsxAudit.Proofs.Text.Renaming
import JsxAudit.Proofs.Syntax.Spans
import JsxAudit.Proofs.Data.Related
import JsxAudit.Source.Element

/-!
Two files of which one is the other with a name replaced throughout.

`Renamed` compares two trees node by node, each with its text: identifiers are renamed, literals and
texts stay, tags and accesses follow their identifiers. It goes through the children of all nodes but
those that hold names of their own (`holdsForeignNames`), such as the names that other modules give to
what they export; nothing is looked for there. A property that has its name from the variable it is
set to keeps the name, and so becomes a pair (`Turned`).

What the rules ask a tree is asked of its nodes, their children in a role, and the nodes below them of
certain kinds. Each of these has a lemma here, by induction on the tree where it goes all the way down
(`filter_preorder`).
-/

namespace JsxAudit

open Syntax

/-! ### Nodes that a renaming does not look into -/

namespace Syntax

/-- Nodes in which a name need not be one of the program: what modules call the things they hold, and
types. -/
def Kind.holdsForeignNames : Kind → Bool
  | .importSpecifier | .exportClause | .namespaceExport | .importAlias | .jsxNamespaceName
  | .enumBody | .typeMark | .typeArguments | .typeParameters | .typeExpression | .typeMember => true
  | _ => false

namespace Node

variable {n : Node}

/-- Nobody asks for the children of such a node in this role. -/
def isClosable (n : Node) : Bool :=
  n.kind.holdsForeignNames && [none, some Role.name, some Role.body].contains n.role

theorem isClosable_of_kind (h : n.kind.holdsForeignNames = false) : n.isClosable = false := by
  rw [isClosable, h, Bool.false_and]

/-- Nodes that are looked for at any depth. -/
def isSought (n : Node) : Bool :=
  match n.kind with
  | .jsxElement | .jsxSelfClosing | .jsxText | .jsxExpression => true
  | .call | .ternary | .templateString => true
  | .member => (n.child? .object).isSome
  | _ => false

/-- Neither the node nor one below it is looked for. -/
def IsInert (n : Node) : Prop :=
  ∀ s ∈ Site.preorder [] n, s.node.isSought = false

instance (n : Node) : Decidable n.IsInert :=
  inferInstanceAs (Decidable (∀ s ∈ Site.preorder [] n, s.node.isSought = false))

theorem preorder_nodes (above : List Node) (n : Node) :
    (Site.preorder above n).map (·.node) = (Site.preorder [] n).map (·.node) := by
  induction n using children_induction generalizing above with
  | step n ih =>
    rw [Site.preorder_eq, Site.preorder_eq, List.map_cons, List.map_cons, List.map_flatMap,
      List.map_flatMap]
    congr 1
    refine List.flatMap_congr fun c mem => ?_
    rw [ih c mem, ← ih c mem [n]]

theorem IsInert.not_sought {above : List Node} {s : Site} (h : n.IsInert)
    (mem : s ∈ Site.preorder above n) : s.node.isSought = false := by
  have inside := List.mem_map_of_mem (f := (·.node)) mem
  rw [preorder_nodes] at inside
  obtain ⟨t, mem, eq⟩ := List.mem_map.mp inside
  rw [← eq]
  exact h t mem

theorem IsInert.child {c : Node} (h : n.IsInert) (mem : c ∈ n.children) : c.IsInert := by
  intro s inside
  have below : s.node ∈ (Site.preorder [n] c).map (·.node) := by
    rw [preorder_nodes]
    exact List.mem_map_of_mem inside
  obtain ⟨t, found, eq⟩ := List.mem_map.mp below
  rw [← eq]
  refine h t ?_
  rw [Site.preorder_eq]
  exact List.mem_cons_of_mem _ (List.mem_flatMap.mpr ⟨c, mem, found⟩)

end Node

end Syntax

/-! ### Names, tags and bindings -/

namespace Renaming

variable (r : Renaming)

/-- A name of a program that does not know the new one, and the same name afterwards. -/
structure Names (name name' : String) : Prop where
  fresh : name ≠ r.new
  simple : '.' ∉ name.toList
  eq : name' = r.rename name

instance (name name' : String) : Decidable (r.Names name name') :=
  decidable_of_iff (name ≠ r.new ∧ '.' ∉ name.toList ∧ name' = r.rename name)
    ⟨fun ⟨fresh, simple, eq⟩ => ⟨fresh, simple, eq⟩,
      fun ⟨fresh, simple, eq⟩ => ⟨fresh, simple, eq⟩⟩

/-- A dotted name from its first dot on. -/
def fromDot (name : String) : List Char :=
  name.toList.dropWhile (· != '.')

/-- A tag is a name, or a dotted name that may begin with one. -/
def Tags (tag tag' : String) : Prop :=
  r.Names tag tag' ∨ fromDot tag ≠ [] ∧ fromDot tag = fromDot tag'

instance (tag tag' : String) : Decidable (r.Tags tag tag') :=
  inferInstanceAs (Decidable (_ ∨ _))

/-- The same thing is imported under a name and under what the name has become. -/
structure Binds (b b' : Source.ImportBinding) : Prop where
  module : b'.module = b.module
  imported : b'.imported = b.imported
  name : r.Names b.name b'.name

instance (b b' : Source.ImportBinding) : Decidable (r.Binds b b') :=
  decidable_of_iff (b'.module = b.module ∧ b'.imported = b.imported ∧ r.Names b.name b'.name)
    ⟨fun ⟨module, imported, name⟩ => ⟨module, imported, name⟩,
      fun ⟨module, imported, name⟩ => ⟨module, imported, name⟩⟩

variable {r} {name name' other other' tag tag' : String}

namespace Names

/-- Names are the same before if and only if they are the same afterwards. -/
theorem eq_iff (h : r.Names name name') (h' : r.Names other other') :
    name = other ↔ name' = other' := by
  have fresh := h.fresh
  have fresh' := h'.fresh
  rw [h.eq, h'.eq, Renaming.rename, Renaming.rename]
  by_cases old : name = r.old
  · by_cases old' : other = r.old
    · simp [old, old']
    · rw [if_pos old, if_neg old', old]
      exact ⟨fun same => absurd same.symm old', fun same => absurd same.symm fresh'⟩
  · by_cases old' : other = r.old
    · rw [if_neg old, if_pos old', old']
      exact ⟨fun same => absurd same old, fun same => absurd same fresh⟩
    · rw [if_neg old, if_neg old']

/-- Texts that do not begin with a capital are neither name. -/
theorem of_small (small : name.toList.head?.any Text.isUppercase = false)
    (simple : '.' ∉ name.toList) : r.Names name name := by
  refine ⟨(r.new_isComponentName.ne_of_small small).symm, simple, ?_⟩
  rw [rename, if_neg (r.old_isComponentName.ne_of_small small).symm]

theorem simple' (h : r.Names name name') : '.' ∉ name'.toList := by
  rw [h.eq, rename]
  split
  · exact r.new_isComponentName.not_mem (by decide)
  · exact h.simple

theorem cases (h : r.Names name name') :
    name = r.old ∧ name' = r.new ∨ name ≠ r.old ∧ name' = name := by
  rw [h.eq, rename]
  split
  · rename_i old
    exact .inl ⟨old, rfl⟩
  · rename_i other
    exact .inr ⟨other, rfl⟩

end Names

theorem mem_of_fromDot_ne (h : fromDot name ≠ []) : '.' ∈ name.toList := by
  by_contra simple
  refine h (List.dropWhile_eq_nil_iff.mpr fun c mem => ?_)
  rw [bne_iff_ne]
  rintro rfl
  exact simple mem

namespace Tags

theorem eq_iff (h : r.Tags tag tag') (h' : r.Names name name') : tag = name ↔ tag' = name' := by
  rcases h with named | ⟨dotted, same⟩
  · exact named.eq_iff h'
  · refine ⟨fun eq => ?_, fun eq => ?_⟩
    · exact absurd (eq ▸ mem_of_fromDot_ne dotted) h'.simple
    · exact absurd (eq ▸ mem_of_fromDot_ne (same ▸ dotted)) h'.simple'

/-- A tag of small letters stays. -/
theorem eq_small_iff (h : r.Tags tag tag')
    (small : name.toList.head?.any Text.isUppercase = false) (simple : '.' ∉ name.toList) :
    tag = name ↔ tag' = name :=
  h.eq_iff (.of_small small simple)

/-- Tags of small letters are the same before and afterwards, and no others are among them. -/
theorem contains_eq {names : List String} (h : r.Tags tag tag')
    (each : ∀ name ∈ names, name.toList.head?.any Text.isUppercase = false ∧ '.' ∉ name.toList) :
    names.contains tag = names.contains tag' := by
  rw [Bool.eq_iff_iff, List.contains_iff_mem, List.contains_iff_mem]
  constructor
  · intro mem
    rwa [(h.eq_small_iff (each _ mem).1 (each _ mem).2).mp rfl]
  · intro mem
    rwa [(h.eq_small_iff (each _ mem).1 (each _ mem).2).mpr rfl]

end Tags

end Renaming

namespace Source

/-! ### Nodes -/

/-- What an access says behind its object. -/
def behindObject? (f : SourceFile) (n : Node) : Option (List Char) :=
  (n.child? .object).bind fun object =>
    Text.dropStart (f.nodeText object).toList (f.nodeText n).toList

/-- The node is a text, a number or a string as written. -/
def isVerbatim (f : SourceFile) (n : Node) : Bool :=
  n.kind = .jsxText || n.kind = .number || (f.stringValue? n).isSome

/-- A node and the same node after a renaming, their children apart. -/
structure Alike (r : Renaming) (f f' : SourceFile) (n n' : Node) : Prop where
  kind : n'.kind = n.kind
  role : n'.role = n.role
  reads : r.Reads (f.nodeText n) (f'.nodeText n')
  /-- Identifiers are renamed. -/
  identifier : n.kind = .identifier → r.Names (f.nodeText n) (f'.nodeText n')
  /-- Texts and literals say nothing about the names of a program. -/
  verbatim : isVerbatim f n = true → f'.nodeText n' = f.nodeText n
  tag : isElementKind n.kind = true →
    r.Tags (Element.tag ⟨f, n, []⟩) (Element.tag ⟨f', n', []⟩)
  attributeName : n.kind = .jsxAttribute → Attribute.name ⟨f', n'⟩ = Attribute.name ⟨f, n⟩
  /-- Behind its object an access stays as it is. -/
  behind : n.kind = .member → (n.child? .object).isSome = true →
    (behindObject? f n).isSome = true ∧ behindObject? f' n' = behindObject? f n
  property : n.kind = .member →
    (n'.child? .property).map f'.nodeText = (n.child? .property).map f.nodeText
  /-- What an import takes from a module keeps the name that it has there. -/
  specifier : n.kind = .importSpecifier →
    Option.Rel r.Binds (f.specifierBinding? "" n) (f'.specifierBinding? "" n')

/-- A property named like the variable it is set to, and the pair that it becomes when the variable
gets another name. -/
structure Turned (r : Renaming) (f f' : SourceFile) (n n' : Node) : Prop where
  kind : n.kind = .shorthandProperty
  kind' : n'.kind = .pair
  role : n.role = none
  role' : n'.role = none
  text : f.nodeText n = r.old
  key : (n'.child? .key).map f'.nodeText = some r.old
  inert : n.IsInert
  inert' : n'.IsInert

/-- The nodes hold foreign names, and nothing else that anybody looks for. -/
structure Closed (n n' : Node) : Prop where
  closable : n.isClosable = true
  inert : n.IsInert
  inert' : n'.IsInert

section

variable (r : Renaming) (f f' : SourceFile)

mutual

/-- The second tree is the first one with a name replaced. -/
def Renamed : Node → Node → Prop
  | .mk kind role start stop children, n' =>
    Alike r f f' (.mk kind role start stop children) n' ∧
      (Closed (.mk kind role start stop children) n' ∨
        RenamedAll (kind = .object) children n'.children)

/-- The trees of a list are renamed one by one, and in an object properties may become pairs. -/
def RenamedAll (inObject : Bool) : List Node → List Node → Prop
  | [], ns' => ns' = []
  | _ :: _, [] => False
  | n :: ns, n' :: ns' =>
    (Renamed n n' ∨ inObject = true ∧ Turned r f f' n n') ∧ RenamedAll inObject ns ns'

end

end

/-! ### Deciding that a tree is renamed -/

section

variable {r : Renaming} {f f' : SourceFile} {n n' : Node}

instance (b b' : Option ImportBinding) : Decidable (Option.Rel r.Binds b b') :=
  match b, b' with
  | none, none => .isTrue .none
  | some b, some b' => decidable_of_iff (r.Binds b b') ⟨.some, fun | .some h => h⟩
  | none, some _ => .isFalse nofun
  | some _, none => .isFalse nofun

instance : Decidable (Alike r f f' n n') :=
  decidable_of_iff (n'.kind = n.kind ∧ n'.role = n.role ∧
      r.Reads (f.nodeText n) (f'.nodeText n') ∧
      (n.kind = .identifier → r.Names (f.nodeText n) (f'.nodeText n')) ∧
      (isVerbatim f n = true → f'.nodeText n' = f.nodeText n) ∧
      (isElementKind n.kind = true →
        r.Tags (Element.tag ⟨f, n, []⟩) (Element.tag ⟨f', n', []⟩)) ∧
      (n.kind = .jsxAttribute → Attribute.name ⟨f', n'⟩ = Attribute.name ⟨f, n⟩) ∧
      (n.kind = .member → (n.child? .object).isSome = true →
        (behindObject? f n).isSome = true ∧ behindObject? f' n' = behindObject? f n) ∧
      (n.kind = .member →
        (n'.child? .property).map f'.nodeText = (n.child? .property).map f.nodeText) ∧
      (n.kind = .importSpecifier →
        Option.Rel r.Binds (f.specifierBinding? "" n) (f'.specifierBinding? "" n')))
    ⟨fun ⟨h₁, h₂, h₃, h₄, h₅, h₆, h₇, h₈, h₉, h₁₀⟩ => ⟨h₁, h₂, h₃, h₄, h₅, h₆, h₇, h₈, h₉, h₁₀⟩,
      fun ⟨h₁, h₂, h₃, h₄, h₅, h₆, h₇, h₈, h₉, h₁₀⟩ => ⟨h₁, h₂, h₃, h₄, h₅, h₆, h₇, h₈, h₉, h₁₀⟩⟩

instance : Decidable (Turned r f f' n n') :=
  decidable_of_iff (n.kind = .shorthandProperty ∧ n'.kind = .pair ∧ n.role = none ∧
      n'.role = none ∧ f.nodeText n = r.old ∧ (n'.child? .key).map f'.nodeText = some r.old ∧
      n.IsInert ∧ n'.IsInert)
    ⟨fun ⟨h₁, h₂, h₃, h₄, h₅, h₆, h₇, h₈⟩ => ⟨h₁, h₂, h₃, h₄, h₅, h₆, h₇, h₈⟩,
      fun ⟨h₁, h₂, h₃, h₄, h₅, h₆, h₇, h₈⟩ => ⟨h₁, h₂, h₃, h₄, h₅, h₆, h₇, h₈⟩⟩

instance : Decidable (Closed n n') :=
  decidable_of_iff (n.isClosable = true ∧ n.IsInert ∧ n'.IsInert)
    ⟨fun ⟨h₁, h₂, h₃⟩ => ⟨h₁, h₂, h₃⟩, fun ⟨h₁, h₂, h₃⟩ => ⟨h₁, h₂, h₃⟩⟩

mutual

def decideRenamed : (n n' : Node) → Decidable (Renamed r f f' n n')
  | .mk kind role start stop children, n' =>
    have : Decidable (RenamedAll r f f' (kind = .object) children n'.children) :=
      decideRenamedAll _ children n'.children
    inferInstanceAs (Decidable (Alike r f f' (.mk kind role start stop children) n' ∧
      (Closed (.mk kind role start stop children) n' ∨
        RenamedAll r f f' (kind = .object) children n'.children)))

def decideRenamedAll (inObject : Bool) :
    (ns ns' : List Node) → Decidable (RenamedAll r f f' inObject ns ns')
  | [], ns' => inferInstanceAs (Decidable (ns' = []))
  | _ :: _, [] => .isFalse id
  | n :: ns, n' :: ns' =>
    have : Decidable (Renamed r f f' n n') := decideRenamed n n'
    have : Decidable (RenamedAll r f f' inObject ns ns') := decideRenamedAll inObject ns ns'
    inferInstanceAs (Decidable ((Renamed r f f' n n' ∨ inObject = true ∧ Turned r f f' n n') ∧
      RenamedAll r f f' inObject ns ns'))

end

instance : Decidable (Renamed r f f' n n') :=
  decideRenamed n n'

end

/-- The files of a name before and after it is replaced. -/
structure RenamedFile (r : Renaming) (f f' : SourceFile) : Prop where
  path : f'.path = f.path
  program : f.root.kind = .program
  tree : Renamed r f f' f.root f'.root

instance (r : Renaming) (f f' : SourceFile) : Decidable (RenamedFile r f f') :=
  decidable_of_iff (f'.path = f.path ∧ f.root.kind = .program ∧ Renamed r f f' f.root f'.root)
    ⟨fun ⟨path, program, tree⟩ => ⟨path, program, tree⟩,
      fun ⟨path, program, tree⟩ => ⟨path, program, tree⟩⟩

/-! ### Children -/

section

variable {r : Renaming} {f f' : SourceFile} {n n' : Node}

/-- Children at the same place of a node before and after a renaming. -/
def Parts (r : Renaming) (f f' : SourceFile) (inObject : Bool) (c c' : Node) : Prop :=
  Renamed r f f' c c' ∨ inObject = true ∧ Turned r f f' c c'

theorem renamedAll_iff {inObject : Bool} {ns ns' : List Node} :
    RenamedAll r f f' inObject ns ns' ↔ List.Forall₂ (Parts r f f' inObject) ns ns' := by
  induction ns generalizing ns' with
  | nil => rw [RenamedAll, List.forall₂_nil_left_iff]
  | cons n ns ih =>
    cases ns' with
    | nil => rw [RenamedAll, List.forall₂_nil_right_iff]; simp
    | cons n' ns' => rw [RenamedAll, ih, List.forall₂_cons]; rfl

theorem renamed_iff : Renamed r f f' n n' ↔ Alike r f f' n n' ∧
    (Closed n n' ∨ List.Forall₂ (Parts r f f' (n.kind = .object)) n.children n'.children) := by
  cases n with
  | mk kind role start stop children =>
    rw [Renamed, renamedAll_iff]
    rfl

namespace Renamed

theorem alike (h : Renamed r f f' n n') : Alike r f f' n n' :=
  (renamed_iff.mp h).1

theorem kind (h : Renamed r f f' n n') : n'.kind = n.kind :=
  h.alike.kind

theorem reads (h : Renamed r f f' n n') : r.Reads (f.nodeText n) (f'.nodeText n') :=
  h.alike.reads

theorem parts (h : Renamed r f f' n n') (shown : n.isClosable = false) :
    List.Forall₂ (Parts r f f' (n.kind = .object)) n.children n'.children := by
  rcases (renamed_iff.mp h).2 with closed | parts
  · exact absurd (closed.closable.symm.trans shown) (by decide)
  · exact parts

/-- The children of a node that is no object are renamed, each in its place. -/
theorem children (h : Renamed r f f' n n') (shown : n.isClosable = false)
    (other : n.kind ≠ .object) :
    List.Forall₂ (Renamed r f f') n.children n'.children := by
  refine (h.parts shown).imp fun c c' part => ?_
  rcases part with renamed | ⟨object, -⟩
  · exact renamed
  · exact absurd (by simpa using object) other

theorem namedChildren (h : Renamed r f f' n n') (shown : n.isClosable = false)
    (other : n.kind ≠ .object) :
    List.Forall₂ (Renamed r f f') n.namedChildren n'.namedChildren :=
  (rel_filter (p := (·.kind.isNamed)) (q := (·.kind.isNamed)) (h.children shown other)
    fun _ _ child => by rw [child.kind]).imp fun _ _ both => both.2

/-- The named children of any node, properties that become pairs among them. -/
theorem namedParts (h : Renamed r f f' n n') (shown : n.isClosable = false) :
    List.Forall₂ (Parts r f f' (n.kind = .object)) n.namedChildren n'.namedChildren := by
  refine (rel_filter (h.parts shown) fun c c' part => ?_).imp fun _ _ both => both.2
  rcases part with renamed | ⟨-, turned⟩
  · rw [renamed.kind]
  · rw [turned.kind, turned.kind']
    rfl

/-- The child in a role is renamed: properties that become pairs have no role. -/
theorem child? (h : Renamed r f f' n n') (shown : n.isClosable = false) (role : Role) :
    Option.Rel (Renamed r f f') (n.child? role) (n'.child? role) := by
  have found := rel_find? (p := (·.role = some role)) (q := (·.role = some role)) (h.parts shown)
    fun c c' part => by
      rcases part with renamed | ⟨-, turned⟩
      · rw [renamed.alike.role]
      · rw [turned.role, turned.role']
  refine rel_imp found fun c c' ⟨inRole, part⟩ => ?_
  rcases part with renamed | ⟨-, turned⟩
  · exact renamed
  · simp [turned.role] at inRole

/-- A child in a role in which no foreign names stand has its own children compared. -/
theorem openChild? (h : Renamed r f f' n n') (shown : n.isClosable = false) (role : Role)
    (inside : [none, some Role.name, some Role.body].contains (some role) = false) :
    Option.Rel (fun c c' => c.isClosable = false ∧ Renamed r f f' c c')
      (n.child? role) (n'.child? role) := by
  have found := h.child? shown role
  cases eq : n.child? role with
  | none =>
    rw [eq] at found
    generalize n'.child? role = other at found ⊢
    cases found
    exact .none
  | some c =>
    rw [eq] at found
    generalize n'.child? role = other at found ⊢
    obtain ⟨renamed⟩ := found
    have is : c.role = some role := by simpa using List.find?_some eq
    exact .some ⟨by rw [Node.isClosable, is, inside, Bool.and_false], renamed⟩

theorem unwrapThrough {p : Kind → Bool} (h : Renamed r f f' n n')
    (plain : ∀ k, p k = true → k.holdsForeignNames = false ∧ k ≠ .object) :
    Renamed r f f' (n.unwrapThrough p) (n'.unwrapThrough p) := by
  refine Node.unwrapThrough_rel (fun _ _ => kind) (fun n n' both wraps => ?_) h
  obtain ⟨shown, other⟩ := plain _ wraps
  exact both.namedChildren (Node.isClosable_of_kind shown) other

end Renamed

/-! ### Sites -/

/-- A site and the same site after a renaming. -/
structure SiteAlike (r : Renaming) (f f' : SourceFile) (s s' : Site) : Prop where
  node : Renamed r f f' s.node s'.node
  above : List.Forall₂ (Renamed r f f') s.above s'.above

theorem filter_preorder_of_isInert {q : Node → Bool} (sought : ∀ n, q n = true → n.isSought = true)
    {above : List Node} (inert : n.IsInert) :
    (Site.preorder above n).filter (q ·.node) = [] := by
  rw [List.filter_eq_nil_iff]
  intro s mem hit
  exact Bool.false_ne_true ((inert.not_sought mem).symm.trans (sought _ hit))

section

variable {q : Node → Bool} {above above' : List Node}

/-- The nodes below corresponding children correspond. Below a property that becomes a pair nothing
is found. -/
theorem filter_flatMap_preorder {inObject : Bool} {cs cs' : List Node}
    (sought : ∀ n, q n = true → n.isSought = true)
    (parts : List.Forall₂ (Parts r f f' inObject) cs cs')
    (below : ∀ c ∈ cs, ∀ c', Renamed r f f' c c' → List.Forall₂ (SiteAlike r f f')
      ((Site.preorder above c).filter (q ·.node)) ((Site.preorder above' c').filter (q ·.node))) :
    List.Forall₂ (SiteAlike r f f') ((cs.flatMap (Site.preorder above)).filter (q ·.node))
      ((cs'.flatMap (Site.preorder above')).filter (q ·.node)) := by
  induction parts with
  | nil => exact .nil
  | @cons c c' cs cs' first rest ih =>
    rw [List.flatMap_cons, List.flatMap_cons, List.filter_append, List.filter_append]
    refine List.rel_append ?_ (ih fun d mem => below d (List.mem_cons_of_mem _ mem))
    rcases first with renamed | ⟨-, turned⟩
    · exact below c List.mem_cons_self c' renamed
    · rw [filter_preorder_of_isInert sought turned.inert,
        filter_preorder_of_isInert sought turned.inert']
      exact .nil

variable (sought : ∀ n, q n = true → n.isSought = true)
  (same : ∀ n n', Renamed r f f' n n' → q n = q n')

include sought same

/-- What is looked for in a tree is found at the same places after the renaming. -/
theorem filter_preorder (h : Renamed r f f' n n')
    (around : List.Forall₂ (Renamed r f f') above above') :
    List.Forall₂ (SiteAlike r f f') ((Site.preorder above n).filter (q ·.node))
      ((Site.preorder above' n').filter (q ·.node)) := by
  induction n using Node.children_induction generalizing n' above above' with
  | step n ih =>
    rcases (renamed_iff.mp h).2 with closed | parts
    · rw [filter_preorder_of_isInert sought closed.inert,
        filter_preorder_of_isInert sought closed.inert']
      exact .nil
    · have below := filter_flatMap_preorder sought parts fun c mem c' child =>
        ih c mem child (.cons h around)
      rw [Site.preorder_eq, Site.preorder_eq, List.filter_cons, List.filter_cons, ← same n n' h]
      cases q n with
      | true => exact .cons ⟨h, around⟩ below
      | false => exact below

theorem filter_descendants {s s' : Site} (h : SiteAlike r f f' s s') :
    List.Forall₂ (SiteAlike r f f') (s.descendants.filter (q ·.node))
      (s'.descendants.filter (q ·.node)) := by
  rw [Site.descendants_eq, Site.descendants_eq]
  rcases (renamed_iff.mp h.node).2 with closed | parts
  · have none {n : Node} (inert : n.IsInert) (above : List Node) :
        (n.children.flatMap (Site.preorder above)).filter (q ·.node) = [] := by
      rw [List.filter_flatMap, List.flatMap_eq_nil_iff]
      exact fun c mem => filter_preorder_of_isInert sought (inert.child mem)
    rw [none closed.inert, none closed.inert']
    exact .nil
  · exact filter_flatMap_preorder sought parts fun c mem c' child =>
      filter_preorder sought same child (.cons h.node h.above)

end

/-- The nodes of a kind that are below a site. -/
theorem SiteAlike.descendantsWhere {s s' : Site} {p : Kind → Bool} (h : SiteAlike r f f' s s')
    (sought : ∀ n : Node, p n.kind = true → n.isSought = true) :
    List.Forall₂ (SiteAlike r f f') (s.descendantsWhere p) (s'.descendantsWhere p) :=
  filter_descendants (q := fun n => p n.kind) sought (fun n n' renamed => by rw [renamed.kind]) h

end

end Source

end JsxAudit
