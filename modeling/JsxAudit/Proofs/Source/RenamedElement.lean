import JsxAudit.Proofs.Source.Renamed
import JsxAudit.Rule.Basic

/-!
Elements and attributes of a file before and after a name is replaced.

Every question about an element has corresponding answers: its parts correspond, its own texts read
alike, its literal values and the text it shows are the same.
-/

namespace JsxAudit

open Syntax

namespace Source

variable {r : Renaming} {f f' : SourceFile} {n n' : Node}

/-! ### Literal values -/

theorem Renamed.stringValue? (h : Renamed r f f' n n') : f'.stringValue? n' = f.stringValue? n := by
  have verbatim := h.alike.verbatim
  simp only [isVerbatim, Bool.or_eq_true, decide_eq_true_eq] at verbatim
  have text (given : (f.stringValue? n).isSome = true) := verbatim (.inr given)
  unfold SourceFile.stringValue? at text ⊢
  rw [h.kind]
  cases kind : n.kind with
  | string =>
    rw [kind] at text
    rw [text rfl]
  | templateString =>
    have shown : n.isClosable = false := Node.isClosable_of_kind (by rw [kind]; rfl)
    have parts := h.namedChildren shown (by rw [kind]; decide)
    have same := any_eq_of_rel parts (p := (·.kind = .templateSubstitution))
      (q := (·.kind = .templateSubstitution)) fun c c' child => by rw [child.kind]
    rw [kind] at text
    rw [← same]
    by_cases substitutes : n.namedChildren.any (·.kind = .templateSubstitution) = true
    · simp [substitutes]
    · simp only [substitutes] at text ⊢
      rw [text rfl]
  | _ => rfl

/-- Children of a kind that no property has. -/
theorem Renamed.filterNamed {p : Kind → Bool} (h : Renamed r f f' n n')
    (shown : n.isClosable = false) (shorthand : p .shorthandProperty = false)
    (pair : p .pair = false) :
    List.Forall₂ (Renamed r f f') (n.namedChildren.filter (p ·.kind))
      (n'.namedChildren.filter (p ·.kind)) := by
  rw [Node.namedChildren, Node.namedChildren, List.filter_filter, List.filter_filter]
  have parts := h.parts shown
  generalize n.children = cs at parts
  generalize n'.children = cs' at parts
  induction parts with
  | nil => exact .nil
  | @cons c c' cs cs' first _ ih =>
    rw [List.filter_cons, List.filter_cons]
    rcases first with renamed | ⟨-, turned⟩
    · rw [renamed.kind]
      split
      · exact .cons renamed ih
      · exact ih
    · rw [turned.kind, turned.kind', shorthand, pair]
      exact ih

/-! ### Attributes -/

/-- Attributes at the same place. -/
inductive AttributeAlike (r : Renaming) (f f' : SourceFile) : Attribute → Attribute → Prop
  | mk {n n' : Node} (kind : n.kind = .jsxAttribute) (node : Renamed r f f' n n') :
    AttributeAlike r f f' ⟨f, n⟩ ⟨f', n'⟩

namespace AttributeAlike

variable {a a' : Attribute} (h : AttributeAlike r f f' a a')

include h

theorem name : a'.name = a.name := by
  obtain ⟨kind, node⟩ := h
  exact node.alike.attributeName kind

theorem valueNode? : Option.Rel (Renamed r f f') a.valueNode? a'.valueNode? := by
  obtain ⟨kind, node⟩ := h
  have shown := Node.isClosable_of_kind (n := _) (by rw [kind]; rfl)
  exact rel_head? (List.forall₂_drop 1 (node.namedChildren shown (by rw [kind]; decide)))

theorem isBare : a'.isBare = a.isBare := by
  rw [Attribute.isBare, Attribute.isBare, ← Option.not_isSome, ← Option.not_isSome,
    isSome_eq_of_rel h.valueNode?]

theorem expression? : Option.Rel (Renamed r f f') a.expression? a'.expression? := by
  refine rel_bind h.valueNode? fun n n' value => ?_
  rw [value.kind]
  split
  · rename_i kind
    have shown : n.isClosable = false := Node.isClosable_of_kind (by rw [kind]; rfl)
    have parts := value.namedChildren shown (by rw [kind]; decide)
    refine rel_imp (rel_find? parts fun c c' child => ?_) fun _ _ found => found.2
    rw [child.kind]
  · exact .none

theorem stringValue? : a'.stringValue? = a.stringValue? := by
  refine (eq_of_rel (rel_bind h.valueNode? fun n n' value => ?_)).symm
  rw [value.kind]
  have file : a.file = f ∧ a'.file = f' := by
    obtain ⟨-, -⟩ := h
    exact ⟨rfl, rfl⟩
  rw [file.1, file.2]
  split
  · rw [value.stringValue?]
    cases f.stringValue? n with
    | none => exact .none
    | some _ => exact .some rfl
  · refine rel_bind h.expression? fun c c' inside => ?_
    have inner := inside.unwrapThrough (p := (· = .parenthesized)) fun k is => by
      rw [of_decide_eq_true is]
      decide
    rw [Node.unwrap, Node.unwrap, inner.stringValue?]
    cases f.stringValue? _ with
    | none => exact .none
    | some _ => exact .some rfl

theorem expressionText? : Option.Rel r.Reads a.expressionText? a'.expressionText? := by
  have inner := h.expression?
  obtain ⟨-, -⟩ := h
  exact rel_map_option inner fun _ _ node => node.reads

end AttributeAlike

/-! ### Elements -/

/-- Elements at the same place. -/
inductive ElementAlike (r : Renaming) (f f' : SourceFile) : Element → Element → Prop
  | mk {s s' : Site} (kind : isElementKind s.node.kind = true) (site : SiteAlike r f f' s s') :
    ElementAlike r f f' ⟨f, s⟩ ⟨f', s'⟩

/-- The elements among corresponding sites correspond. -/
theorem ofSites_alike {sites sites' : List Site} (h : List.Forall₂ (SiteAlike r f f') sites sites') :
    List.Forall₂ (ElementAlike r f f') (Element.ofSites f sites) (Element.ofSites f' sites') := by
  induction h with
  | nil => exact .nil
  | @cons s s' sites sites' first _ ih =>
    unfold Element.ofSites at ih ⊢
    rw [List.filter_cons, List.filter_cons, first.node.kind]
    split
    · rename_i kind
      exact .cons ⟨kind, first⟩ ih
    · exact ih

theorem isSought_of_isElementKind {n : Node} (h : isElementKind n.kind = true) :
    n.isSought = true := by
  unfold isElementKind at h
  unfold Node.isSought
  cases kind : n.kind <;> simp_all

theorem holdersOf_alike {above above' : List Node} (h : List.Forall₂ (Renamed r f f') above above') :
    List.Forall₂ (ElementAlike r f f') (Element.holdersOf f above) (Element.holdersOf f' above') := by
  induction h with
  | nil => exact .nil
  | @cons n n' above above' first rest ih =>
    rw [Element.holdersOf, Element.holdersOf, first.kind]
    split
    · rename_i kind
      exact .cons ⟨by rw [isElementKind, kind]; rfl, first, rest⟩ ih
    · exact ih

namespace ElementAlike

variable {e e' : Element} (h : ElementAlike r f f' e e')

include h

theorem node : Renamed r f f' e.node e'.node := by
  obtain ⟨-, site⟩ := h
  exact site.node

theorem isSelfClosing : e'.isSelfClosing = e.isSelfClosing := by
  rw [Element.isSelfClosing, Element.isSelfClosing, h.node.kind]

theorem isClosable : e.node.isClosable = false := by
  refine Node.isClosable_of_kind ?_
  have either : e.node.kind = .jsxElement ∨ e.node.kind = .jsxSelfClosing := by
    obtain ⟨kind, -⟩ := h
    simpa [isElementKind, Element.node] using kind
  rcases either with kind | kind
  · rw [kind]; rfl
  · rw [kind]; rfl

/-- The opening tags correspond, and they have what opening tags have. -/
theorem opening : Renamed r f f' e.opening e'.opening ∧ e.opening.isClosable = false := by
  unfold Element.opening
  rw [h.isSelfClosing]
  split
  · exact ⟨h.node, h.isClosable⟩
  · have found := h.node.child? h.isClosable .openTag
    cases eq : e.node.child? .openTag with
    | none =>
      rw [eq] at found
      generalize e'.node.child? .openTag = other at found
      cases found
      exact ⟨h.node, h.isClosable⟩
    | some o =>
      rw [eq] at found
      generalize e'.node.child? .openTag = other at found
      obtain ⟨renamed⟩ := found
      refine ⟨renamed, ?_⟩
      have role : o.role = some .openTag := by simpa using List.find?_some eq
      rw [Option.getD_some, Node.isClosable, role]
      simp

theorem tag : r.Tags e.tag e'.tag := by
  obtain ⟨kind, site⟩ := h
  exact site.node.alike.tag kind

theorem tag_reads : r.Reads e.tag e'.tag := by
  obtain ⟨opening, shown⟩ := h.opening
  have name := opening.child? shown .name
  unfold Element.tag
  obtain ⟨-, -⟩ := h
  generalize Node.child? _ _ = a at name
  generalize Node.child? _ _ = b at name
  cases name with
  | some named => exact named.reads
  | none => exact .refl ""

theorem text_reads : r.Reads e.text e'.text := by
  have node := h.node
  obtain ⟨-, -⟩ := h
  exact node.reads

theorem openingText_reads : r.Reads e.openingText e'.openingText := by
  have opening := h.opening.1
  obtain ⟨-, -⟩ := h
  exact opening.reads

/-! ### Attributes of elements -/

theorem attributes : List.Forall₂ (AttributeAlike r f f') e.attributes e'.attributes := by
  obtain ⟨opening, shown⟩ := h.opening
  have found := opening.filterNamed (p := (· = .jsxAttribute)) shown rfl rfl
  unfold Element.attributes
  obtain ⟨-, -⟩ := h
  rw [List.forall₂_map_left_iff, List.forall₂_map_right_iff]
  refine (List.forall₂_and_left (p := (·.kind = .jsxAttribute)) _ _).mpr ⟨?_, found⟩ |>.imp ?_
  · intro n mem
    simpa using (List.mem_filter.mp mem).2
  · rintro n n' ⟨kind, renamed⟩
    exact ⟨kind, renamed⟩

theorem attribute? (name : String) :
    Option.Rel (AttributeAlike r f f') (e.attribute? name) (e'.attribute? name) :=
  rel_imp (rel_find? h.attributes fun a a' alike => by rw [alike.name]) fun _ _ found => found.2

theorem hasAttribute (name : String) : e'.hasAttribute name = e.hasAttribute name :=
  (isSome_eq_of_rel (h.attribute? name)).symm

theorem literal? (name : String) : Rule.literal? e' name = Rule.literal? e name := by
  refine (eq_of_rel (rel_bind (h.attribute? name) fun a a' alike => ?_)).symm
  rw [alike.stringValue?]
  cases a.stringValue? with
  | none => exact .none
  | some _ => exact .some rfl

/-! ### Content -/

theorem site : SiteAlike r f f' e.site e'.site := by
  obtain ⟨-, site⟩ := h
  exact site

theorem file : e.file = f := by
  obtain ⟨-, -⟩ := h
  rfl

theorem file' : e'.file = f' := by
  obtain ⟨-, -⟩ := h
  rfl

theorem children : List.Forall₂ (SiteAlike r f f') e.children e'.children := by
  unfold Element.children
  rw [h.isSelfClosing]
  split
  · exact .nil
  · have kind : e.node.kind ≠ .object := by
      obtain ⟨kind, -⟩ := h
      intro object
      rw [Element.node] at object
      rw [object] at kind
      cases kind
    have sites : List.Forall₂ (SiteAlike r f f') e.site.namedChildren e'.site.namedChildren :=
      rel_map (h.node.namedChildren h.isClosable kind) fun c c' child =>
        ⟨child, .cons h.node h.site.above⟩
    refine (rel_filter sites fun s s' alike => ?_).imp fun _ _ both => both.2
    rw [alike.node.kind, alike.node.alike.role]

theorem childElements : List.Forall₂ (ElementAlike r f f') e.childElements e'.childElements := by
  rw [Element.childElements, Element.childElements, h.file, h.file']
  exact ofSites_alike h.children

theorem descendantElements :
    List.Forall₂ (ElementAlike r f f') e.descendantElements e'.descendantElements := by
  rw [Element.descendantElements, Element.descendantElements, h.isSelfClosing, h.file, h.file']
  split
  · exact .nil
  · have found := ofSites_alike (h.site.descendantsWhere (p := isElementKind)
      fun n => isSought_of_isElementKind)
    simpa only [Element.ofSites, Site.descendantsWhere, List.filter_filter, Bool.and_self]
      using found

theorem textContent : e'.textContent = e.textContent := by
  unfold Element.textContent
  rw [h.isSelfClosing]
  split
  · rfl
  · have texts := h.site.descendantsWhere (p := (· = .jsxText)) fun n is => by
      rw [Node.isSought, of_decide_eq_true is]
    have known := (List.forall₂_and_left (p := fun s => s.node.kind = .jsxText) _ _).mpr
      ⟨fun s mem => by simpa using (List.mem_filter.mp mem).2, texts⟩
    have same : (e.site.descendantsWhere (· = .jsxText)).map
          (fun s => Text.trim (e.file.nodeText s.node)) =
        (e'.site.descendantsWhere (· = .jsxText)).map
          (fun s => Text.trim (e'.file.nodeText s.node)) :=
      map_eq_of_rel known fun s s' ⟨kind, alike⟩ => by
        rw [h.file, h.file', alike.node.alike.verbatim (by rw [isVerbatim, kind]; rfl)]
    dsimp only
    rw [← same]

theorem contentExpressions :
    List.Forall₂ (SiteAlike r f f') (Rule.contentExpressions e) (Rule.contentExpressions e') := by
  unfold Rule.contentExpressions
  rw [h.isSelfClosing]
  split
  · exact .nil
  · have braces := h.site.descendantsWhere (p := (· = .jsxExpression)) fun n is => by
      rw [Node.isSought, of_decide_eq_true is]
    have known := (List.forall₂_and_left (p := fun s => s.node.kind = .jsxExpression) _ _).mpr
        ⟨fun s mem => by simpa using (List.mem_filter.mp mem).2, braces⟩
    refine (rel_filter known fun s s' ⟨kind, alike⟩ => ?_).imp fun _ _ both => both.2.2
    obtain ⟨n, above⟩ := s
    obtain ⟨n', above'⟩ := s'
    obtain ⟨node, around⟩ := alike
    have shown : n.isClosable = false := Node.isClosable_of_kind (by rw [kind]; rfl)
    have inside := any_eq_of_rel (node.namedChildren shown (by rw [kind]; decide))
      (p := (·.kind ≠ .comment)) (q := (·.kind ≠ .comment)) fun c c' child => by rw [child.kind]
    cases around with
    | nil => rw [inside]
    | cons first _ =>
      dsimp only
      rw [inside, first.kind]

theorem hasVisibleContent : Rule.hasVisibleContent e' = Rule.hasVisibleContent e := by
  rw [Rule.hasVisibleContent, Rule.hasVisibleContent, h.textContent,
    isEmpty_eq_of_rel h.contentExpressions]

theorem ancestors : List.Forall₂ (ElementAlike r f f') e.ancestors e'.ancestors := by
  rw [Element.ancestors, Element.ancestors, h.file, h.file']
  exact holdersOf_alike h.site.above

end ElementAlike

/-! ### Elements of a file -/

namespace RenamedFile

variable (h : RenamedFile r f f')

include h

theorem site : SiteAlike r f f' f.site f'.site :=
  ⟨h.tree, .nil⟩

theorem elements : List.Forall₂ (ElementAlike r f f') f.elements f'.elements := by
  have found := ofSites_alike (h.site.descendantsWhere (p := isElementKind)
    fun n => isSought_of_isElementKind)
  simpa only [SourceFile.elements, Element.ofSites, Site.descendantsWhere, List.filter_filter,
    Bool.and_self] using found

end RenamedFile

end Source

end JsxAudit
