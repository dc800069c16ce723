import JsxAudit.Proofs.Syntax.Spans
import JsxAudit.Source.Element
import JsxAudit.Source.Import

/-!
Files without syntax errors, and where their nodes stand.

`IsProgram` is what the tree of such a file is like, whichever parser made it. In it no two elements
share an offset, so an element is found again by its anchor (`elementAt?_anchor`), and the parts of
an element lie inside the element. The search for the element at an offset ends at the first element
behind the offset. In a well-formed tree, along whose walk the starts never decrease, it misses none
(`elementAt?_first`).
-/

namespace JsxAudit.Syntax.Node

/-! ### Deciding the shape of a tree -/

mutual

def decideWellFormed : (n : Node) → Decidable n.WellFormed
  | mk _ _ start stop children =>
    have : Decidable (Ordered start stop children) := decideOrdered start stop children
    inferInstanceAs (Decidable (start ≤ stop ∧ Ordered start stop children))

def decideOrdered (start stop : Nat) : (ns : List Node) → Decidable (Ordered start stop ns)
  | [] => .isTrue trivial
  | n :: rest =>
    have : Decidable n.WellFormed := decideWellFormed n
    have : Decidable (Ordered n.stop stop rest) := decideOrdered n.stop stop rest
    inferInstanceAs (Decidable (start ≤ n.start ∧ n.stop ≤ stop ∧ n.WellFormed ∧
      Ordered n.stop stop rest))

end

instance (n : Node) : Decidable n.WellFormed :=
  decideWellFormed n

end JsxAudit.Syntax.Node

namespace JsxAudit.Source

open Syntax

namespace SourceFile

variable {f : SourceFile} {n c : Node} {e : Element}

/-! ### Nodes of a file -/

/-- The node stands in the tree of the file, below the root. -/
def Holds (f : SourceFile) (n : Node) : Prop :=
  ∃ s ∈ f.site.descendants, s.node = n

theorem holds_of_mem_children (mem : c ∈ f.root.children) : f.Holds c :=
  ⟨_, Site.mem_descendants_of_mem_children mem, rfl⟩

theorem Holds.child (h : f.Holds n) (mem : c ∈ n.children) : f.Holds c := by
  obtain ⟨s, inside, rfl⟩ := h
  exact ⟨_, Site.child_mem_descendants inside mem, rfl⟩

theorem Holds.namedChild (h : f.Holds n) (mem : c ∈ n.namedChildren) : f.Holds c :=
  h.child (Node.mem_children_of_mem_namedChildren mem)

theorem holds_of_mem_elements (h : e ∈ f.elements) : f.Holds e.node := by
  obtain ⟨s, mem, rfl⟩ := List.mem_map.mp h
  exact ⟨s, (List.mem_filter.mp mem).1, rfl⟩

theorem holds_of_lastImport? (h : f.lastImport? = some n) : f.Holds n := by
  have statement := List.mem_of_getLast? h
  exact holds_of_mem_children
    (Node.mem_children_of_mem_namedChildren (List.mem_filter.mp statement).1)

/-! ### Programs -/

/-- The tree of a file without syntax errors. -/
structure IsProgram (f : SourceFile) : Prop where
  /-- Nodes lie inside the node that holds them, one after the other. -/
  nested : f.root.WellFormed
  inside : f.root.stop ≤ f.bytes.length
  /-- No two elements start at the same offset. -/
  apart : (f.elements.map (·.anchor)).Nodup
  /-- Nothing is missing: each node has a text. -/
  filled : ∀ s ∈ f.site.descendants, f.nodeText s.node ≠ ""
  /-- Objects have their two braces. -/
  braced : ∀ s ∈ f.site.descendants, s.node.kind = .object → s.node.start + 2 ≤ s.node.stop

instance (f : SourceFile) : Decidable f.IsProgram :=
  decidable_of_iff (f.root.WellFormed ∧ f.root.stop ≤ f.bytes.length ∧
      (f.elements.map (·.anchor)).Nodup ∧
      (∀ s ∈ f.site.descendants, f.nodeText s.node ≠ "") ∧
      ∀ s ∈ f.site.descendants, s.node.kind = .object → s.node.start + 2 ≤ s.node.stop)
    ⟨fun ⟨nested, inside, apart, filled, braced⟩ => ⟨nested, inside, apart, filled, braced⟩,
      fun ⟨nested, inside, apart, filled, braced⟩ => ⟨nested, inside, apart, filled, braced⟩⟩

namespace IsProgram

variable (program : f.IsProgram)

include program

theorem within_root (h : f.Holds n) : n.Within f.root := by
  obtain ⟨s, mem, rfl⟩ := h
  exact Site.within_of_mem_descendants program.nested mem

theorem wellFormed (h : f.Holds n) : n.WellFormed :=
  (program.within_root h).wellFormed

theorem stop_le (h : f.Holds n) : n.stop ≤ f.bytes.length :=
  Nat.le_trans (program.within_root h).stop_le program.inside

theorem nodeText_ne (h : f.Holds n) : f.nodeText n ≠ "" := by
  obtain ⟨s, mem, rfl⟩ := h
  exact program.filled s mem

end IsProgram

/-! ### Imports -/

/-- A binding has the name that the import gives it, or the one that the module gives it. -/
theorem name_of_mem_imports {b : ImportBinding} (h : b ∈ f.imports) :
    (∃ n, f.Holds n ∧ b.name = f.nodeText n) ∨ b.name = b.imported := by
  obtain ⟨statement, mem, found⟩ := List.mem_flatMap.mp h
  have top := holds_of_mem_children
    (Node.mem_children_of_mem_namedChildren (List.mem_filter.mp mem).1)
  unfold statementBindings at found
  split at found
  · cases found
  · obtain ⟨clause, mem, found⟩ := List.mem_flatMap.mp found
    obtain ⟨part, inner, found⟩ := List.mem_flatMap.mp found
    have held := (top.namedChild (List.mem_filter.mp mem).1).namedChild inner
    unfold clauseBindings at found
    split at found
    · rw [List.mem_singleton.mp found]
      exact .inl ⟨part, held, rfl⟩
    · obtain ⟨n, mem, rfl⟩ := List.mem_map.mp found
      exact .inl ⟨n, held.namedChild (List.mem_filter.mp mem).1, rfl⟩
    · obtain ⟨specifier, mem, found⟩ := List.mem_filterMap.mp found
      simp only [specifierBinding?, Option.bind_eq_bind, Option.bind_eq_some_iff] at found
      obtain ⟨name, -, found⟩ := found
      cases found
      cases alias' : specifier.child? .alias with
      | none => exact .inr rfl
      | some n =>
        have inside := held.namedChild (List.mem_filter.mp mem).1
        exact .inl ⟨n, inside.child (Node.mem_children_of_child? alias'), rfl⟩
    · cases found

/-- What a program imports by default, or by its name, has a name there. -/
theorem localDefault?_ne {module exported name : String} (program : f.IsProgram)
    (given : exported ≠ "") (h : f.localDefault? module exported = some name) : name ≠ "" := by
  obtain ⟨b, found, rfl⟩ := Option.map_eq_some_iff.mp h
  have mem := (List.mem_filter.mp (List.mem_of_find?_eq_some found)).1
  rcases name_of_mem_imports mem with ⟨n, held, eq⟩ | eq
  · rw [eq]
    exact program.nodeText_ne held
  · have which := List.find?_some found
    simp only [Bool.or_eq_true, decide_eq_true_eq] at which
    rcases which with default | named
    · rw [eq, default]
      decide
    · rwa [eq, named]

/-! ### Finding elements -/

/-- The search that gives up early finds what a search to the end finds. -/
theorem elementFrom_eq {offset : Nat} {sites : List Site}
    (ascending : sites.Pairwise fun a b => a.node.start ≤ b.node.start) :
    elementFrom offset sites =
      (sites.filter fun s => isElementKind s.node.kind).find? (·.node.start = offset) := by
  induction sites with
  | nil => rfl
  | cons s rest ih =>
    obtain ⟨first, ascending⟩ := List.pairwise_cons.mp ascending
    by_cases element : isElementKind s.node.kind = true
    · rw [elementFrom, if_pos element, List.filter_cons_of_pos (by exact element),
        List.find?_cons]
      by_cases here : s.node.start = offset
      · simp [here]
      · rw [if_neg here]
        split
        · rename_i behind
          have none : (rest.filter fun s => isElementKind s.node.kind).find?
              (·.node.start = offset) = none := by
            rw [List.find?_eq_none]
            intro t mem
            have := first t (List.mem_filter.mp mem).1
            simp only [decide_eq_true_eq]
            omega
          simp [here, none]
        · simp [here, ih ascending]
    · rw [elementFrom, if_neg element, List.filter_cons_of_neg (by exact element), ih ascending]

theorem elementAt?_eq (nested : f.root.WellFormed) (offset : Nat) :
    f.elementAt? offset = f.elements.find? (·.anchor = offset) := by
  have ascending := Site.descendants_ascending (s := f.site) nested
  rw [elementAt?, elementFrom_eq ascending, elements, Element.ofSites, List.find?_map]
  rfl

/-- An element is found if and only if it starts at the offset and none before it does. -/
theorem elementAt?_eq_some_iff {offset : Nat} (nested : f.root.WellFormed) :
    f.elementAt? offset = some e ↔ e.anchor = offset ∧
      ∃ before after, f.elements = before ++ e :: after ∧ ∀ b ∈ before, b.anchor ≠ offset := by
  rw [elementAt?_eq nested, List.find?_eq_some_iff_append]
  simp

/-- Nothing is found if and only if no element starts at the offset. -/
theorem elementAt?_eq_none_iff {offset : Nat} (nested : f.root.WellFormed) :
    f.elementAt? offset = none ↔
      ∀ s, f.site.Below s → isElementKind s.node.kind = true → s.node.start ≠ offset := by
  rw [elementAt?_eq nested, List.find?_eq_none]
  constructor
  · intro none s below element start
    have mem : s ∈ f.site.descendantsWhere isElementKind :=
      List.mem_filter.mpr ⟨Site.mem_descendants_iff.mpr below, element⟩
    exact none ⟨f, s⟩ (List.mem_map_of_mem mem) (decide_eq_true start)
  · intro none e mem start
    obtain ⟨s, inside, rfl⟩ := List.mem_map.mp mem
    obtain ⟨walked, element⟩ := List.mem_filter.mp inside
    exact none s (Site.mem_descendants_iff.mp walked) element (of_decide_eq_true start)

theorem find?_eq_of_nodup {α β : Type} [DecidableEq β] {key : α → β} {xs : List α} {x : α}
    (apart : (xs.map key).Nodup) (mem : x ∈ xs) : xs.find? (key · = key x) = some x := by
  induction xs with
  | nil => cases mem
  | cons y rest ih =>
    rw [List.map_cons, List.nodup_cons] at apart
    rcases List.mem_cons.mp mem with rfl | mem
    · simp
    · have other : key y ≠ key x := fun same => apart.1 (same ▸ List.mem_map_of_mem mem)
      simp [other, ih apart.2 mem]

/-- An element of a program is found again by its anchor. -/
theorem elementAt?_anchor (program : f.IsProgram) (h : e ∈ f.elements) :
    f.elementAt? e.anchor = some e := by
  rw [elementAt?_eq program.nested]
  exact find?_eq_of_nodup program.apart h

/-- A walk with a stack comes to the nodes below a node, those of some kinds or all of them, in the
order of the recursion, each before its children. In a file whose nodes lie inside the node that
holds them, one after the other, the element found at an offset is the first one in this order that
starts there, and nothing is found only if no element below the root, which is the program, starts
there. So to give up at the first element behind the offset misses none. -/
theorem elementAt?_first (f : SourceFile) :
    (∀ (s : Site) (p : Kind → Bool), s.descendantsWhere p =
      (Site.preorderAll (s.node :: s.above) s.node.children).filter fun t => p t.node.kind) ∧
    f.elements = ((Site.preorderAll [f.root] f.root.children).filter
      fun s => isElementKind s.node.kind).map (⟨f, ·⟩) ∧
    (f.root.WellFormed → ∀ offset,
      (∀ e, f.elementAt? offset = some e ↔ e.anchor = offset ∧
        ∃ before after, f.elements = before ++ e :: after ∧ ∀ b ∈ before, b.anchor ≠ offset) ∧
      (f.elementAt? offset = none ↔
        ∀ s, f.site.Below s → isElementKind s.node.kind = true → s.node.start ≠ offset)) := by
  refine ⟨Site.descendantsWhere_eq, ?_, fun nested offset => ⟨fun e => ?_, ?_⟩⟩
  · exact congrArg (List.map (Element.mk f)) (Site.descendantsWhere_eq f.site isElementKind)
  · exact elementAt?_eq_some_iff nested
  · exact elementAt?_eq_none_iff nested

/-- At seven starts the second of two elements inside another one. At four starts none, and the
search ends at the second one. -/
theorem elementAt?_first_second :
    ∃ f ∈ SourceFile.parse "a.tsx" "<p><i/><b/></p>;", f.root.WellFormed ∧
      (∃ e, f.elementAt? 7 = some e ∧ e.tag = "b" ∧
        ∃ before after, f.elements = before ++ e :: after ∧ ∀ b ∈ before, b.anchor ≠ 7) ∧
      f.elementAt? 4 = none ∧
      ∀ s, f.site.Below s → isElementKind s.node.kind = true → s.node.start ≠ 4 := by
  have computed : ∃ f ∈ SourceFile.parse "a.tsx" "<p><i/><b/></p>;", f.root.WellFormed ∧
      (f.elementAt? 7).map (·.tag) = some "b" ∧ (f.elementAt? 4).isNone = true := by
    decide +kernel
  obtain ⟨f, parsed, nested, second, none⟩ := computed
  obtain ⟨e, found, tag⟩ := Option.map_eq_some_iff.mp second
  have none := Option.isNone_iff_eq_none.mp none
  obtain ⟨-, -, search⟩ := elementAt?_first f
  obtain ⟨-, first⟩ := ((search nested 7).1 e).mp found
  exact ⟨f, parsed, nested, ⟨e, found, tag, first⟩, none, (search nested 4).2.mp none⟩

end SourceFile

/-! ### Parts of elements -/

namespace Attribute

variable {attr : Attribute} {n : Node}

theorem mem_children_of_valueNode? (h : attr.valueNode? = some n) : n ∈ attr.node.children :=
  Node.mem_children_of_mem_namedChildren (List.mem_of_mem_drop (List.mem_of_head? h))

theorem within_of_valueNode? (shaped : attr.node.WellFormed) (h : attr.valueNode? = some n) :
    n.Within attr.node :=
  Node.within_of_mem_children shaped (mem_children_of_valueNode? h)

theorem within_of_expression? (shaped : attr.node.WellFormed) (h : attr.expression? = some n) :
    n.Within attr.node := by
  simp only [expression?, Option.bind_eq_bind, Option.bind_eq_some_iff] at h
  obtain ⟨value, given, found⟩ := h
  have outer := within_of_valueNode? shaped given
  split at found
  · have inner := Node.mem_children_of_mem_namedChildren (List.mem_of_find?_eq_some found)
    exact outer.trans (Node.within_of_mem_children outer.wellFormed inner)
  · cases found

end Attribute

namespace Element

variable {e inner : Element} {n : Node} {attr : Attribute} {name : String}

theorem opening_within (shaped : e.node.WellFormed) : e.opening.Within e.node := by
  unfold opening
  split
  · exact .refl shaped
  · cases found : e.node.child? .openTag with
    | none => exact .refl shaped
    | some o => exact Node.within_of_mem_children shaped (Node.mem_children_of_child? found)

theorem name_within (shaped : e.node.WellFormed) (h : e.opening.child? .name = some n) :
    n.Within e.node := by
  have outer := opening_within shaped
  exact outer.trans
    (Node.within_of_mem_children outer.wellFormed (Node.mem_children_of_child? h))

/-- An element with a tag has a node that names it. -/
theorem exists_name (tagged : e.tag ≠ "") : ∃ n, e.opening.child? .name = some n := by
  rw [tag] at tagged
  cases found : e.opening.child? .name with
  | none => simp [found] at tagged
  | some n => exact ⟨n, rfl⟩

theorem attribute_within (shaped : e.node.WellFormed) (h : e.attribute? name = some attr) :
    attr.node.Within e.node := by
  obtain ⟨n, mem, rfl⟩ := List.mem_map.mp (List.mem_of_find?_eq_some h)
  have outer := opening_within shaped
  have child := Node.mem_children_of_mem_namedChildren (List.mem_filter.mp mem).1
  exact outer.trans (Node.within_of_mem_children outer.wellFormed child)

theorem name_of_attribute? (h : e.attribute? name = some attr) : attr.name = name := by
  simpa using List.find?_some h

/-- What is between the tags of an element. -/
theorem mem_children_of_mem_childElements (h : inner ∈ e.childElements) :
    e.isSelfClosing = false ∧ inner.node ∈ e.node.children ∧ inner.node.role ≠ some .openTag := by
  obtain ⟨s, mem, rfl⟩ := List.mem_map.mp h
  have child := (List.mem_filter.mp mem).1
  unfold children at child
  split at child
  · cases child
  · rename_i other
    obtain ⟨named, between⟩ := List.mem_filter.mp child
    obtain ⟨n, direct, rfl⟩ := List.mem_map.mp named
    simp only [Bool.and_eq_true, decide_eq_true_eq] at between
    exact ⟨by simpa using other, Node.mem_children_of_mem_namedChildren direct, between.1.1⟩

/-- The name of an element does not reach into the elements between its tags. -/
theorem name_apart_of_mem_childElements (shaped : e.node.WellFormed)
    (h : e.opening.child? .name = some n) (mem : inner ∈ e.childElements) :
    n.stop ≤ inner.node.start ∨ inner.node.stop ≤ n.stop := by
  obtain ⟨paired, child, role⟩ := mem_children_of_mem_childElements mem
  have named := Node.mem_children_of_child? h
  have span := (name_within shaped h).span
  unfold opening at named
  rw [paired, if_neg Bool.false_ne_true] at named
  cases found : e.node.child? .openTag with
  | none =>
    rw [found] at named
    by_cases same : n = inner.node
    · exact .inr (Nat.le_of_eq (congrArg Node.stop same.symm))
    · rcases Node.apart_of_mem_children shaped named child same with before | behind
      · exact .inl before
      · exact .inr (by omega)
  | some o =>
    rw [found] at named
    have opens := Node.mem_children_of_child? found
    have other : o ≠ inner.node := by
      rintro rfl
      exact role (by simpa using List.find?_some found)
    have inside := Node.within_of_mem_children
      (Node.within_of_mem_children shaped opens).wellFormed named
    have start := inside.start_le
    have stop := inside.stop_le
    rcases Node.apart_of_mem_children shaped opens child other with before | behind
    · exact .inl (by omega)
    · exact .inr (by omega)

end Element

end JsxAudit.Source
