import JsxAudit.Proofs.Source.Copied
import JsxAudit.Rule.Basic

/-!
What an element shows, and where it is found.

All nodes below an element are searched for texts and for braces with something in them, those below
its tags among them. Text in an element that is the value of an attribute counts as well, and so do
braces that stand deeper in a tag than its attributes. So an element shows something if something is
shown between its tags or in them (`hasVisibleContent_eq`). The first depends on what stands between
the tags alone (`shownBetween_copied`), and is false if that is blank (`shownBetween_of_blank`).
-/

namespace JsxAudit.Rule

open Source Syntax

/-! ### Shown things -/

/-- The node is an attribute, or braces that stand among the attributes of a tag. -/
def isInTag (s : Site) : Bool :=
  s.above.head?.any fun holder =>
    holder.kind = .jsxAttribute || holder.kind = .jsxOpening || holder.kind = .jsxSelfClosing

/-- A text that is not blank, or braces outside of a tag that hold something. -/
def isShown (f : SourceFile) (s : Site) : Bool :=
  (s.node.kind = .jsxText && Text.trim (f.nodeText s.node) != "") ||
    (s.node.kind = .jsxExpression && !isInTag s && s.node.namedChildren.any (·.kind ≠ .comment))

/-- Something is shown by the node or below it. -/
def shows (f : SourceFile) (s : Site) : Bool :=
  (Site.preorder s.above s.node).any (isShown f)

/-- What stands between the tags of an element shows something. -/
def shownBetween (e : Element) : Bool :=
  e.children.any (shows e.file)

/-- The node is one of those that stand between the tags of an element. -/
def isBetween (s : Site) : Bool :=
  s.node.kind.isNamed && s.node.role ≠ some .openTag && s.node.role ≠ some .closeTag &&
    s.node.kind ≠ .comment

/-- Something is shown in the tags of an element, that is, below the values of its attributes. -/
def shownInTags (e : Element) : Bool :=
  !e.isSelfClosing && (e.site.children.filter (!isBetween ·)).any (shows e.file)

/-- Elements of any files between whose tags the same is written. -/
def SameContent (e e' : Element) : Prop :=
  CopiedAll e.file e'.file (e.children.map (·.node)) (e'.children.map (·.node))

instance (e e' : Element) : Decidable (SameContent e e') :=
  inferInstanceAs (Decidable (CopiedAll ..))

/-- A blank text, or braces around nothing but comments. -/
def isBlankContent (f : SourceFile) (n : Node) : Bool :=
  (n.kind = .jsxText && Text.trim (f.nodeText n) = "" && n.children.isEmpty) ||
    (n.kind = .jsxExpression && n.children.all fun c =>
      c.children.isEmpty && (c.kind = .comment || !c.kind.isNamed))

/-! ### All nodes below an element -/

variable {e e' : Element} {f f' : SourceFile} {n : Node}

theorem intercalate_ne_empty {sep : String} {parts : List String} (given : parts ≠ [])
    (filled : ∀ part ∈ parts, part ≠ "") : sep.intercalate parts ≠ "" := by
  obtain ⟨part, rest, rfl⟩ := List.exists_cons_of_ne_nil given
  have first := filled part List.mem_cons_self
  intro empty
  have chars := congrArg String.toList empty
  cases rest with
  | nil => exact first (String.toList_injective (by simpa using chars))
  | cons next rest => exact first (String.toList_injective (by simp_all))

theorem textContent_ne_empty (paired : e.isSelfClosing = false) :
    e.textContent ≠ "" ↔ ∃ s ∈ e.site.descendants,
      s.node.kind = .jsxText ∧ Text.trim (e.file.nodeText s.node) ≠ "" := by
  have mem_parts (part : String) :
      part ∈ ((e.site.descendantsWhere (· = .jsxText)).map fun s =>
          Text.trim (e.file.nodeText s.node)).filter (· != "") ↔
        ∃ s ∈ e.site.descendants, s.node.kind = .jsxText ∧
          Text.trim (e.file.nodeText s.node) = part ∧ part ≠ "" := by
    simp only [Site.descendantsWhere, List.mem_filter, List.mem_map, decide_eq_true_eq, bne_iff_ne,
      ← exists_and_right, and_assoc]
  unfold Element.textContent
  rw [paired, if_neg Bool.false_ne_true]
  dsimp only
  generalize List.filter _ _ = parts at mem_parts ⊢
  constructor
  · intro shown
    obtain ⟨part, mem⟩ := List.exists_mem_of_ne_nil parts fun none => shown (by rw [none]; rfl)
    obtain ⟨s, below, text, rfl, filled⟩ := (mem_parts part).mp mem
    exact ⟨s, below, text, filled⟩
  · rintro ⟨s, below, text, filled⟩
    have given : parts ≠ [] := List.ne_nil_of_mem ((mem_parts _).mpr ⟨s, below, text, rfl, filled⟩)
    refine intercalate_ne_empty given fun part mem => ?_
    obtain ⟨-, -, -, -, filled⟩ := (mem_parts part).mp mem
    exact filled

theorem contentExpressions_ne_nil (paired : e.isSelfClosing = false) :
    contentExpressions e ≠ [] ↔ ∃ s ∈ e.site.descendants, s.node.kind = .jsxExpression ∧
      isInTag s = false ∧ s.node.namedChildren.any (·.kind ≠ .comment) = true := by
  unfold contentExpressions isInTag
  rw [paired, if_neg Bool.false_ne_true, ne_eq, List.filter_eq_nil_iff]
  simp only [Site.descendantsWhere, List.mem_filter, decide_eq_true_eq, Bool.and_eq_true,
    Bool.not_eq_true', not_forall, not_not, exists_prop, and_assoc]
  refine exists_congr fun s => ?_
  cases s.above <;> rfl

/-- An element shows something if any node below it does. -/
theorem hasVisibleContent_iff (paired : e.isSelfClosing = false) :
    hasVisibleContent e = true ↔ ∃ s ∈ e.site.descendants, isShown e.file s = true := by
  have split : hasVisibleContent e = true ↔ e.textContent ≠ "" ∨ contentExpressions e ≠ [] := by
    simp [hasVisibleContent]
  rw [split, textContent_ne_empty paired, contentExpressions_ne_nil paired, ← exists_or]
  refine exists_congr fun s => ?_
  simp only [isShown, ← and_or_left, Bool.or_eq_true, Bool.and_eq_true, decide_eq_true_eq,
    bne_iff_ne, Bool.not_eq_true', and_assoc]

/-! ### Between the tags and in them -/

theorem children_eq (paired : e.isSelfClosing = false) :
    e.children = e.site.children.filter isBetween := by
  unfold Element.children Site.namedChildren Site.children Node.namedChildren
  rw [paired, if_neg Bool.false_ne_true, List.filter_map, List.filter_map, List.filter_filter]
  congr 1
  refine List.filter_congr fun n _ => ?_
  simp [isBetween, Bool.and_comm, Bool.and_left_comm]

/-- An element shows something if something is shown between its tags or in them. -/
theorem hasVisibleContent_eq (e : Element) :
    hasVisibleContent e = (shownBetween e || shownInTags e) := by
  unfold shownBetween shownInTags
  cases closed : e.isSelfClosing with
  | true => simp [hasVisibleContent, Element.textContent, contentExpressions, Element.children,
      closed]
  | false =>
    rw [Bool.eq_iff_iff, hasVisibleContent_iff closed, children_eq closed, Site.descendants_eq]
    simp only [Bool.not_false, Bool.true_and, Bool.or_eq_true, List.any_eq_true, List.mem_filter,
      List.mem_flatMap, Site.children, List.mem_map, shows]
    constructor
    · rintro ⟨s, ⟨c, mem, below⟩, shown⟩
      cases between : isBetween ⟨c, e.site.node :: e.site.above⟩ with
      | true => exact .inl ⟨_, ⟨⟨c, mem, rfl⟩, between⟩, s, below, shown⟩
      | false => exact .inr ⟨_, ⟨⟨c, mem, rfl⟩, by simp [between]⟩, s, below, shown⟩
    · rintro (⟨-, ⟨⟨c, mem, rfl⟩, -⟩, s, below, shown⟩ | ⟨-, ⟨⟨c, mem, rfl⟩, -⟩, s, below, shown⟩)
      · exact ⟨s, ⟨c, mem, below⟩, shown⟩
      · exact ⟨s, ⟨c, mem, below⟩, shown⟩

/-! ### What stands between the tags -/

/-- What is seen at a node depends on the node and the kind of the one that holds it. -/
theorem isShown_copied {s s' : Site} (copied : Copied f f' s.node s'.node)
    (holder : s'.above.head?.map Node.kind = s.above.head?.map Node.kind) :
    isShown f s = isShown f' s' := by
  have inTag : isInTag s' = isInTag s := by
    unfold isInTag
    cases above : s.above <;> cases above' : s'.above <;> simp_all
  have inside := any_eq_of_rel copied.namedChildren (p := (·.kind ≠ .comment))
    (q := (·.kind ≠ .comment)) fun c c' child => by rw [child.kind]
  unfold isShown
  rw [copied.kind, copied.text, inTag, inside]

/-- What stands between tags is held by an element. -/
theorem holder_of_mem_children (element : isElementKind e.node.kind = true) {s : Site}
    (mem : s ∈ e.children) : s.above.head?.map Node.kind = some .jsxElement := by
  unfold Element.children at mem
  split at mem
  · cases mem
  · rename_i open'
    obtain ⟨n, -, rfl⟩ := List.mem_map.mp (List.mem_filter.mp mem).1
    have kind : e.node.kind = .jsxElement := by
      simpa [isElementKind, show e.node.kind ≠ .jsxSelfClosing by
        simpa [Element.isSelfClosing] using open'] using element
    exact congrArg some kind

/-- Elements of the same content show the same between their tags, whatever their attributes are. -/
theorem shownBetween_copied (element : isElementKind e.node.kind = true)
    (element' : isElementKind e'.node.kind = true) (same : SameContent e e') :
    shownBetween e = shownBetween e' := by
  have rel : List.Forall₂ (fun s s' : Site => Copied e.file e'.file s.node s'.node)
      e.children e'.children := by
    simpa [List.forall₂_map_left_iff, List.forall₂_map_right_iff] using copiedAll_iff.mp same
  refine any_eq_of_rel (rel_mem_zip rel) fun s s' ⟨mem, copied⟩ => ?_
  obtain ⟨left, right⟩ := List.of_mem_zip mem
  refine copied.any_preorder (fun _ _ => isShown_copied) ?_
  rw [holder_of_mem_children element left, holder_of_mem_children element' right]

/-- Between its tags an element with blank content shows nothing. -/
theorem shownBetween_of_blank
    (blank : ∀ s ∈ e.children, isBlankContent e.file s.node = true) : shownBetween e = false := by
  rw [shownBetween, List.any_eq_false]
  intro s mem
  have content := blank s mem
  simp only [isBlankContent, Bool.or_eq_true, Bool.and_eq_true, decide_eq_true_eq,
    List.isEmpty_iff, List.all_eq_true, Bool.not_eq_true'] at content
  rw [Bool.not_eq_true, shows, Site.preorder_eq, List.any_cons, Bool.or_eq_false_iff]
  rcases content with ⟨⟨kind, empty⟩, childless⟩ | ⟨kind, leaves⟩
  · simp [isShown, kind, empty, childless]
  · constructor
    · have comments : ∀ c ∈ s.node.namedChildren, c.kind = .comment := by
        intro c named
        obtain ⟨child, named⟩ := List.mem_filter.mp named
        simpa [named] using (leaves c child).2
      simpa [isShown, kind] using fun _ => comments
    · rw [List.any_eq_false]
      intro t below
      obtain ⟨c, child, below⟩ := List.mem_flatMap.mp below
      obtain ⟨childless, small⟩ := leaves c child
      rw [Site.preorder_eq, childless, List.flatMap_nil, List.mem_singleton] at below
      subst below
      rcases small with comment | token
      · simp [isShown, comment]
      · have text : c.kind ≠ .jsxText := fun eq => by simp [eq, Kind.isNamed] at token
        have braces : c.kind ≠ .jsxExpression := fun eq => by simp [eq, Kind.isNamed] at token
        simp [isShown, text, braces]

/-- What an element shows is shown between its tags or in them. If two elements have the same
content, they are judged alike if and only if something is shown between the tags, or in the tags of
both or of neither. An element with blank content is judged to show something if and only if
something is shown in its tags. -/
theorem hasVisibleContent_eq_iff {e e' : Element} (element : isElementKind e.node.kind = true)
    (element' : isElementKind e'.node.kind = true) (same : SameContent e e') :
    (hasVisibleContent e = hasVisibleContent e' ↔
      shownBetween e = true ∨ shownInTags e = shownInTags e') ∧
    ((∀ s ∈ e.children, isBlankContent e.file s.node = true) →
      hasVisibleContent e = shownInTags e) := by
  rw [hasVisibleContent_eq e, hasVisibleContent_eq e', ← shownBetween_copied element element' same]
  constructor
  · cases shownBetween e with
    | true => simp
    | false => simp
  · intro blank
    rw [shownBetween_of_blank blank, Bool.false_or]

/-- Two buttons around a comment. The text in the attribute of the first one counts as its own. -/
theorem hasVisibleContent_eq_iff_icon :
    ∃ f ∈ SourceFile.parse "a.tsx"
        "<><button icon=\x7b<b>x</b>\x7d>\x7b/**/\x7d</button><button>\x7b/**/\x7d</button></>;",
      ∃ e ∈ f.elements, ∃ e' ∈ f.elements, e.hasAttribute "icon" = true ∧
        e'.tag = "button" ∧ e'.hasAttribute "icon" = false ∧
        isElementKind e.node.kind = true ∧ isElementKind e'.node.kind = true ∧
        SameContent e e' ∧ (∀ s ∈ e.children, isBlankContent e.file s.node = true) ∧
        (hasVisibleContent e = hasVisibleContent e' ↔
          shownBetween e = true ∨ shownInTags e = shownInTags e') ∧
        hasVisibleContent e = shownInTags e ∧ hasVisibleContent e ≠ hasVisibleContent e' := by
  have found : ∃ f ∈ SourceFile.parse "a.tsx"
        "<><button icon=\x7b<b>x</b>\x7d>\x7b/**/\x7d</button><button>\x7b/**/\x7d</button></>;",
      ∃ e ∈ f.elements, ∃ e' ∈ f.elements, e.hasAttribute "icon" = true ∧
        e'.tag = "button" ∧ e'.hasAttribute "icon" = false ∧
        isElementKind e.node.kind = true ∧ isElementKind e'.node.kind = true ∧
        SameContent e e' ∧ (∀ s ∈ e.children, isBlankContent e.file s.node = true) ∧
        hasVisibleContent e ≠ hasVisibleContent e' := by
    decide +kernel
  obtain ⟨f, parsed, e, mem, e', mem', icon, tag, plain, element, element', same, blank, apart⟩ :=
    found
  obtain ⟨alike, nothing⟩ := hasVisibleContent_eq_iff element element' same
  exact ⟨f, parsed, e, mem, e', mem', icon, tag, plain, element, element', same, blank, alike,
    nothing blank, apart⟩

end JsxAudit.Rule
