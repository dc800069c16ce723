import JsxAudit.Proofs.Label.LoopVariable
import JsxAudit.Proofs.Source.RenamedProgram
import JsxAudit.Rule.Registry

/-!
What the rules find before and after a component of a file gets another name.

Findings correspond (`SameFinding`) if they are the same but for the name: they stand at the same
element, and their texts read alike. Each rule has a lemma, and `scan_renamed` is the list of them.

Two questions are asked about names themselves and not about what they are bound to. Labels of
buttons and links take components called `Image`, `Link` and `Svg` for no icons and, in links, those
called `Image` for images; and a link that skips the navigation is known by the word `skip` anywhere
in its source.
-/

namespace JsxAudit.Rule

open Source Audit Label Syntax

variable {r : Renaming} {f f' : SourceFile}

/-! ### Findings -/

/-- Values of fixes whose texts read alike. -/
inductive ValueAlike (r : Renaming) : FixValue → FixValue → Prop
  | literal {text text' : String} : r.Reads text text' →
    ValueAlike r (.literal text) (.literal text')
  | deferred {resolver : String} {params params' : List (String × String)} :
    List.Forall₂ (fun p p' => p.1 = p'.1 ∧ r.Reads p.2 p'.2) params params' →
    ValueAlike r (.deferred resolver params) (.deferred resolver params')

/-- Fixes of one type for one attribute, with such values. -/
structure FixAlike (r : Renaming) (fix fix' : Fix) : Prop where
  type : fix'.type = fix.type
  attr : fix'.attr = fix.attr
  value : ValueAlike r fix.value fix'.value

/-- The findings are about the same part of the files. -/
inductive PlaceAlike (f f' : SourceFile) (v v' : Violation) : Prop
  | onElement {e e' : Element} : (e, e') ∈ f.elements.zip f'.elements →
    (v.line, v.column) = e.position → (v'.line, v'.column) = e'.position →
    v.anchor = some e.anchor → v'.anchor = some e'.anchor → PlaceAlike f f' v v'
  | onAttribute {e e' : Element} {a a' : Attribute} : (e, e') ∈ f.elements.zip f'.elements →
    (a, a') ∈ e.attributes.zip e'.attributes →
    (v.line, v.column) = f.nodePosition a.node → (v'.line, v'.column) = f'.nodePosition a'.node →
    v.anchor = some e.anchor → v'.anchor = some e'.anchor → PlaceAlike f f' v v'
  | inText {s s' : Site} {offset : Nat} :
    (s, s') ∈ (f.site.descendantsWhere (· = .jsxText)).zip
      (f'.site.descendantsWhere (· = .jsxText)) →
    (v.line, v.column) = f.position (s.node.start + offset) →
    (v'.line, v'.column) = f'.position (s'.node.start + offset) →
    v.anchor = some (s.node.start + offset) → v'.anchor = some (s'.node.start + offset) →
    PlaceAlike f f' v v'
  | onFile : (v.line, v.column) = (1, 1) → (v'.line, v'.column) = (1, 1) →
    v.anchor = some 0 → v'.anchor = some 0 → PlaceAlike f f' v v'

/-- A finding before a name is replaced, and the same finding afterwards. -/
structure SameFinding (r : Renaming) (f f' : SourceFile) (v v' : Violation) : Prop where
  rule : v'.rule = v.rule
  filePath : v'.filePath = v.filePath
  place : PlaceAlike f f' v v'
  /-- The parts of the source that are shown are the beginnings of texts that read alike. -/
  element : ∃ source source', r.Reads source source' ∧
    v.element = Text.takeChars Violation.elementLimit source ∧
    v'.element = Text.takeChars Violation.elementLimit source'
  message : r.Reads v.message v'.message
  fix : Option.Rel (FixAlike r) v.fix v'.fix
  tag : Option.Rel r.Reads v.tag v'.tag

theorem FixAlike.refl (r : Renaming) (fix : Fix) : FixAlike r fix fix := by
  refine ⟨rfl, rfl, ?_⟩
  cases fix.value with
  | literal text => exact .literal (.refl text)
  | deferred resolver params =>
    exact .deferred (List.forall₂_same.mpr fun _ _ => ⟨rfl, .refl _⟩)

theorem rel_reads_refl (r : Renaming) (text : Option String) : Option.Rel r.Reads text text := by
  cases text with
  | none => exact .none
  | some text => exact .some (.refl text)

theorem rel_fix_refl (r : Renaming) (fix : Option Fix) : Option.Rel (FixAlike r) fix fix := by
  cases fix with
  | none => exact .none
  | some fix => exact .some (.refl r fix)

/-- Deferred values of parameters that read alike. -/
theorem deferredOf_alike {resolver : String} {params params' : List (String × Option String)}
    (h : List.Forall₂ (fun p p' => p.1 = p'.1 ∧ Option.Rel r.Reads p.2 p'.2) params params') :
    ValueAlike r (.deferredOf resolver params) (.deferredOf resolver params') := by
  refine .deferred (rel_filterMap h fun (key, value) (key', value') ⟨same, reads⟩ => ?_)
  cases reads with
  | none => exact .none
  | @some text text' reads =>
    dsimp only at same ⊢
    rw [Option.filter_some, Option.filter_some]
    by_cases empty : text = ""
    · simp [empty, reads.empty_iff.mp empty]
    · have other : text' ≠ "" := fun empty' => empty (reads.empty_iff.mpr empty')
      simp only [bne_iff_ne, ne_eq, empty, not_false_eq_true, if_true, other, Option.map_some]
      exact .some ⟨same, reads⟩

/-! ### Findings on elements -/

/-- Elements at the same place of two files. -/
structure Placed (r : Renaming) (f f' : SourceFile) (e e' : Element) : Prop where
  mem : (e, e') ∈ f.elements.zip f'.elements
  alike : ElementAlike r f f' e e'

theorem placed_elements (h : RenamedFile r f f') :
    List.Forall₂ (Placed r f f') f.elements f'.elements :=
  (rel_mem_zip h.elements).imp fun _ _ both => ⟨both.1, both.2⟩

theorem placed_elementsTagged {tags tags' : List String} (h : RenamedFile r f f')
    (same : ∀ tag tag', r.Tags tag tag' → tags.contains tag = tags'.contains tag') :
    List.Forall₂ (fun e e' => tags.contains e.tag = true ∧ Placed r f f' e e')
      (f.elementsTagged tags) (f'.elementsTagged tags') :=
  rel_filter (placed_elements h) fun _ _ placed => same _ _ placed.alike.tag

section

variable {e e' : Element} {rule message message' : String} {fix fix' : Option Fix}
  {snippet snippet' : Option String}

theorem violationAt_same (h : Placed r f f' e e') (path : f'.path = f.path)
    (reads : r.Reads message message') (fixes : Option.Rel (FixAlike r) fix fix')
    (shown : Option.Rel r.Reads snippet snippet') :
    SameFinding r f f' (violationAt rule e message fix snippet)
      (violationAt rule e' message' fix' snippet') := by
  refine ⟨rfl, ?_, .onElement h.mem rfl rfl rfl rfl, ?_, reads, fixes, .some h.alike.tag_reads⟩
  · change e'.file.path = e.file.path
    rw [h.alike.file, h.alike.file', path]
  · exact ⟨_, _, rel_getD shown h.alike.text_reads, rfl, rfl⟩

theorem bareTag_reads {tag tag' : String} (h : r.Reads tag tag') :
    r.Reads (bareTag tag) (bareTag tag') :=
  (h.behind (by decide)).before (by decide)

end

theorem fileViolation_same {rule element message : String} {fix fix' : Option Fix}
    (path : f'.path = f.path) (fixes : Option.Rel (FixAlike r) fix fix') :
    SameFinding r f f' (fileViolation rule f element message fix)
      (fileViolation rule f' element message fix') :=
  ⟨rfl, path, .onFile rfl rfl rfl rfl, ⟨_, _, .refl element, rfl, rfl⟩, .refl message, fixes, .none⟩

/-! ### Images -/

/-- A tag is native, or that of the component imported for it, before if and only if it is
afterwards. -/
theorem tagsWith_contains (native : String) {component component' : Option String}
    (small : native.toList.head?.any Text.isUppercase = false) (simple : '.' ∉ native.toList)
    (h : Option.Rel r.Names component component') {tag tag' : String} (tags : r.Tags tag tag') :
    (tagsWith native component).contains tag = (tagsWith native component').contains tag' := by
  have first := tags.eq_small_iff small simple
  unfold tagsWith
  rw [Bool.eq_iff_iff, List.contains_iff_mem, List.contains_iff_mem, List.mem_cons, List.mem_cons,
    first]
  refine or_congr_right ?_
  cases h with
  | none => simp
  | @some name name' named =>
    have empty : tag = "" ↔ tag' = "" := tags.eq_small_iff rfl (by decide)
    have same : name = tag ↔ name' = tag' := eq_comm.trans ((tags.eq_iff named).trans eq_comm)
    simp only [Option.mem_toList, Option.filter_eq_some_iff, Option.some_inj, bne_iff_ne, ne_eq]
    rw [empty, same]

/-- The alternative texts are the same, or they are sources of expressions that read alike. -/
inductive AltAlike (r : Renaming) : Option String × Bool → Option String × Bool → Prop
  | text (value : Option String) : AltAlike r (value, false) (value, false)
  | source {source source' : String} : r.Reads source source' →
    AltAlike r (some source, true) (some source', true)

section

variable {e e' : Element} (h : ElementAlike r f f' e e')

include h

theorem altValue_alike : AltAlike r (altValue e) (altValue e') := by
  have found := h.attribute? "alt"
  unfold altValue
  generalize e.attribute? "alt" = a at found ⊢
  generalize e'.attribute? "alt" = b at found ⊢
  cases found with
  | none => exact .text none
  | @some attr attr' alike =>
    dsimp only
    rw [alike.isBare, alike.stringValue?]
    split
    · exact .text _
    · cases attr.stringValue? with
      | some text => exact .text _
      | none =>
        have source := alike.expressionText?
        generalize attr.expressionText? = c at source ⊢
        generalize attr'.expressionText? = d at source ⊢
        cases source with
        | none => exact .text _
        | some reads => exact .source reads

theorem sourceText?_alike : Option.Rel r.Reads (sourceText? e) (sourceText? e') := by
  refine rel_bind (h.attribute? "src") fun attr attr' alike => ?_
  rw [alike.stringValue?]
  exact rel_or (rel_reads_refl r _) alike.expressionText?

theorem isTrustedAlt_eq : isTrustedAlt e' = isTrustedAlt e := by
  have callback := isSome_eq_of_rel (LoopVariable.enclosingCallback?_alike h.site.above)
  have expression := rel_bind (h.attribute? "alt") fun _ _ alike => alike.expression?
  unfold isTrustedAlt
  rw [h.file, h.file', callback]
  congr 1
  generalize (e.attribute? "alt").bind _ = a at expression ⊢
  generalize (e'.attribute? "alt").bind _ = b at expression ⊢
  cases expression with
  | none => rfl
  | @some n n' alike =>
    have inner := alike.unwrapThrough (p := (· = .parenthesized)) fun k is => by
      rw [of_decide_eq_true is]
      decide
    have site : SiteAlike r f f' ⟨n.unwrap, []⟩ ⟨n'.unwrap, []⟩ := ⟨inner, .nil⟩
    have inside := site.descendantsWhere (p := isComputed) fun m is => by
      simp only [isComputed, Bool.or_eq_true, decide_eq_true_eq] at is
      rw [Node.isSought]
      rcases is with (kind | kind) | kind
      · rw [kind]
      · rw [kind]
      · rw [kind]
    dsimp only
    rw [show n'.unwrap.kind = n.unwrap.kind from inner.kind, isEmpty_eq_of_rel inside]

end

theorem AltAlike.reads {value value' : Option String × Bool} (h : AltAlike r value value') :
    r.Reads (value.1.getD "") (value'.1.getD "") := by
  cases h with
  | text value => exact .refl _
  | source reads => exact reads

theorem classify_eq {value value' : Option String × Bool} (h : AltAlike r value value') :
    classify value'.1 value'.2 = classify value.1 value.2 := by
  cases h with
  | text value => rfl
  | @source source source' reads =>
    by_cases empty : source = ""
    · rw [empty, reads.empty_iff.mp empty]
    · have other : source' ≠ "" := fun empty' => empty (reads.empty_iff.mpr empty')
      simp [classify, empty, other]

theorem checkAlt_alike (settings : RuleSettings) (path : f'.path = f.path) {e e' : Element}
    (h : Placed r f f' e e') :
    Option.Rel (SameFinding r f f') (checkAlt settings e) (checkAlt settings e') := by
  have alt := altValue_alike h.alike
  have deferred : ValueAlike r (.deferredOf "img-alt" [("src", sourceText? e)])
      (.deferredOf "img-alt" [("src", sourceText? e')]) :=
    deferredOf_alike (.cons ⟨rfl, sourceText?_alike h.alike⟩ .nil)
  have report {message message' : String} {fix fix' : Option Fix}
      (reads : r.Reads message message') (fixes : Option.Rel (FixAlike r) fix fix') :
      SameFinding r f f' (violationAt "img-alt" e message fix none)
        (violationAt "img-alt" e' message' fix' none) :=
    violationAt_same h path reads fixes .none
  unfold checkAlt
  dsimp only
  rw [classify_eq alt, isTrustedAlt_eq h.alike]
  cases classify (altValue e).1 (altValue e).2 with
  | missing => exact .some (report (.refl _) (.some ⟨rfl, rfl, deferred⟩))
  | meaningless =>
    exact .some (report ((alt.reads.behind (by decide)).before (by decide))
      (.some ⟨rfl, rfl, deferred⟩))
  | decorative =>
    dsimp only
    split
    · exact .some (report (.refl _) (.some ⟨rfl, rfl, deferred⟩))
    · exact .none
  | dynamic =>
    dsimp only
    split
    · exact .none
    · exact .some (report ((alt.reads.behind (by decide)).before (by decide)) .none)
  | valid => exact .none

theorem imgAlt_renamed (h : RenamedFile r f f') (settings : RuleSettings) :
    List.Forall₂ (SameFinding r f f') (imgAlt.scan settings f) (imgAlt.scan settings f') :=
  rel_filterMap (placed_elementsTagged h fun _ _ tags =>
      tagsWith_contains "img" rfl (by decide) (h.localDefault? "next/image" "Image") tags)
    fun _ _ placed => checkAlt_alike settings h.path placed.2

/-- A tag is that of the component before if and only if it is afterwards. -/
theorem singleton_contains {name name' tag tag' : String} (named : r.Names name name')
    (tags : r.Tags tag tag') : [name].contains tag = [name'].contains tag' := by
  rw [Bool.eq_iff_iff, List.contains_iff_mem, List.contains_iff_mem, List.mem_singleton,
    List.mem_singleton]
  exact tags.eq_iff named

theorem isFill_eq {e e' : Element} (h : ElementAlike r f f' e e') : isFill e' = isFill e := by
  have found := h.attribute? "fill"
  unfold isFill
  generalize e.attribute? "fill" = a at found ⊢
  generalize e'.attribute? "fill" = b at found ⊢
  cases found with
  | none => simp only [Option.any_none]
  | @some attr attr' alike =>
    have text : attr.expressionText? = some "true" ↔ attr'.expressionText? = some "true" := by
      have source := alike.expressionText?
      generalize attr.expressionText? = c at source ⊢
      generalize attr'.expressionText? = d at source ⊢
      cases source with
      | none => exact Iff.rfl
      | some reads =>
        rw [Option.some_inj, Option.some_inj]
        exact reads.eq_iff (Renaming.isFree_of_heads (by decide))
    rw [Option.any_some, Option.any_some, alike.isBare, decide_eq_decide.mpr text]

theorem imageSizes_renamed (h : RenamedFile r f f') (settings : RuleSettings) :
    List.Forall₂ (SameFinding r f f') (imageSizes.scan settings f)
      (imageSizes.scan settings f') := by
  have image := h.localDefault? "next/image" "Image"
  unfold imageSizes
  dsimp only
  generalize f.localDefault? "next/image" "Image" = a at image ⊢
  generalize f'.localDefault? "next/image" "Image" = b at image ⊢
  cases image with
  | none => exact .nil
  | @some name name' named =>
    have reads : r.Reads name name' := by
      rw [named.eq]
      exact Renaming.Reads.rename name
    have images := placed_elementsTagged h fun _ _ tags => singleton_contains named tags
    refine rel_map (rel_filter images fun e e' ⟨_, placed⟩ => ?_) fun e e' ⟨_, _, placed⟩ => ?_
    · rw [isFill_eq placed.alike, placed.alike.hasAttribute]
    · exact violationAt_same placed h.path (.refl _) .none (.some (bareTag_reads reads))

/-! ### Links -/

theorem relationFix?_eq {e e' : Element} (h : ElementAlike r f f' e e') :
    relationFix? e' = relationFix? e := by
  have found := h.attribute? "rel"
  unfold relationFix?
  generalize e.attribute? "rel" = a at found ⊢
  generalize e'.attribute? "rel" = b at found ⊢
  cases found with
  | none => rfl
  | some alike =>
    dsimp only
    rw [alike.stringValue?]

theorem openerMessage_reads {tag tag' : String} (h : r.Reads tag tag') :
    r.Reads ("<" ++ tag ++ " target=\"_blank\"> is missing rel=\"noopener noreferrer\". " ++
        "This is a security risk.")
      ("<" ++ tag' ++ " target=\"_blank\"> is missing rel=\"noopener noreferrer\". " ++
        "This is a security risk.") := by
  simp only [String.append_assoc]
  exact (h.before (by decide)).behind (by decide)

theorem linkNoopener_renamed (h : RenamedFile r f f') (settings : RuleSettings) :
    List.Forall₂ (SameFinding r f f') (linkNoopener.scan settings f)
      (linkNoopener.scan settings f') := by
  have links := placed_elementsTagged h fun _ _ tags =>
    tagsWith_contains "a" rfl (by decide) (h.localDefault? "next/link" "Link") tags
  refine rel_filterMap links fun e e' ⟨_, placed⟩ => ?_
  rw [placed.alike.literal?, relationFix?_eq placed.alike]
  split
  · cases relationFix? e with
    | none => exact .none
    | some fix =>
      have reads := openerMessage_reads placed.alike.tag_reads
      exact .some (violationAt_same placed h.path reads (rel_fix_refl r (some fix))
        (.some placed.alike.openingText_reads))
  · exact .none

theorem nestedAnchor?_isSome {e e' : Element} (h : ElementAlike r f f' e e') :
    (nestedAnchor? e).isSome = (nestedAnchor? e').isSome :=
  isSome_eq_of_rel (rel_find? h.childElements fun inner inner' alike => by
    rw [decide_eq_decide]
    exact alike.tag.eq_small_iff rfl (by decide))

theorem nestedAnchor_renamed (h : RenamedFile r f f') (settings : RuleSettings) :
    List.Forall₂ (SameFinding r f f') (nestedAnchor.scan settings f)
      (nestedAnchor.scan settings f') := by
  have link := h.localDefault? "next/link" "Link"
  unfold nestedAnchor
  dsimp only
  generalize f.localDefault? "next/link" "Link" = a at link ⊢
  generalize f'.localDefault? "next/link" "Link" = b at link ⊢
  cases link with
  | none => exact .nil
  | @some name name' named =>
    have reads : r.Reads name name' := by
      rw [named.eq]
      exact Renaming.Reads.rename name
    have links := placed_elementsTagged h fun _ _ tags => singleton_contains named tags
    refine rel_map (rel_filter links fun e e' ⟨_, placed⟩ => ?_) fun e e' ⟨_, _, placed⟩ => ?_
    · exact nestedAnchor?_isSome placed.alike
    · exact violationAt_same placed h.path (.refl _) (rel_fix_refl r _)
        (.some (bareTag_reads reads))

/-! ### Form fields -/

/-- The tags of a list that no component can have, at their places. -/
theorem placed_small (tags : List String) (h : RenamedFile r f f')
    (small : ∀ tag ∈ tags, tag.toList.head?.any Text.isUppercase = false ∧ '.' ∉ tag.toList) :
    List.Forall₂ (fun e e' => e'.tag = e.tag ∧ Placed r f f' e e') (f.elementsTagged tags)
      (f'.elementsTagged tags) := by
  refine (placed_elementsTagged h fun _ _ alike => alike.contains_eq small).imp
    fun e e' ⟨tagged, placed⟩ => ⟨?_, placed⟩
  rw [List.contains_iff_mem] at tagged
  obtain ⟨first, simple⟩ := small _ tagged
  exact (placed.alike.tag.eq_small_iff first simple).mp rfl

theorem labelTargets_eq (h : RenamedFile r f f') : labelTargets f' = labelTargets f := by
  have labels := placed_small ["label"] h (by decide)
  have targets : List.Forall₂ Eq ((f.elementsTagged ["label"]).filterMap (literal? · "htmlFor"))
      ((f'.elementsTagged ["label"]).filterMap (literal? · "htmlFor")) := by
    refine rel_filterMap labels fun e e' ⟨_, placed⟩ => ?_
    rw [placed.alike.literal?]
    cases literal? e "htmlFor" with
    | none => exact .none
    | some _ => exact .some rfl
  rw [List.forall₂_eq_eq_eq] at targets
  rw [labelTargets, labelTargets, targets]

theorem isLabelled_eq (targets : List String) {e e' : Element} (h : ElementAlike r f f' e e') :
    isLabelled targets e' = isLabelled targets e := by
  have above := any_eq_of_rel h.ancestors (p := (·.tag = "label")) (q := (·.tag = "label"))
    fun e e' alike => by
      rw [decide_eq_decide]
      exact alike.tag.eq_small_iff rfl (by decide)
  unfold isLabelled
  rw [h.literal?, h.hasAttribute, h.hasAttribute, h.literal?, above]

theorem inputLabel_renamed (h : RenamedFile r f f') (settings : RuleSettings) :
    List.Forall₂ (SameFinding r f f') (inputLabel.scan settings f)
      (inputLabel.scan settings f') := by
  have fields := placed_small ["input", "select", "textarea"] h (by decide)
  unfold inputLabel
  dsimp only
  rw [labelTargets_eq h]
  refine rel_map (rel_filter fields fun e e' ⟨_, placed⟩ => ?_) fun e e' ⟨_, same, placed⟩ => ?_
  · rw [isLabelled_eq _ placed.alike]
  · rw [same, placed.alike.literal?, placed.alike.literal?]
    exact violationAt_same placed h.path (.refl _) (rel_fix_refl r _) .none

/-! ### Pages -/

theorem metadataTitle_renamed (h : RenamedFile r f f') (settings : RuleSettings) :
    List.Forall₂ (SameFinding r f f') (metadataTitle.scan settings f)
      (metadataTitle.scan settings f') := by
  have route : Option.Rel r.Reads (PageContext.of f).route (PageContext.of f').route := by
    unfold PageContext.of
    dsimp only
    rw [h.path]
    exact rel_reads_refl r _
  have component : r.Reads (PageContext.of f).component (PageContext.of f').component :=
    h.componentOf
  have slash : f'.slashPath = f.slashPath := congrArg Text.withSlashes h.path
  unfold metadataTitle
  dsimp only
  rw [slash, h.hasTitle, h.exportsGenerator]
  generalize PageContext.of f = page at route component ⊢
  generalize PageContext.of f' = page' at route component ⊢
  split
  · exact .nil
  · have value : ValueAlike r (.deferredOf "page-title" [("route", page.route),
        ("component", some page.component)]) (.deferredOf "page-title" [("route", page'.route),
        ("component", some page'.component)]) :=
      deferredOf_alike (.cons ⟨rfl, route⟩ (.cons ⟨rfl, .some component⟩ .nil))
    exact .cons (fileViolation_same h.path (.some ⟨rfl, rfl, value⟩)) .nil

theorem htmlLang_renamed (h : RenamedFile r f f') (settings : RuleSettings) :
    List.Forall₂ (SameFinding r f f') (htmlLang.scan settings f) (htmlLang.scan settings f') := by
  have documents := placed_small ["html"] h (by decide)
  unfold htmlLang
  dsimp only
  rw [h.path]
  split
  · exact .nil
  · refine rel_map (rel_filter documents fun e e' ⟨_, placed⟩ => ?_)
      fun e e' ⟨_, _, placed⟩ => ?_
    · rw [placed.alike.hasAttribute]
    · exact violationAt_same placed h.path (.refl _) (rel_fix_refl r _) (.some (.refl _))

/-! ### Controls -/

theorem buttonType_renamed (h : RenamedFile r f f') {settings : RuleSettings}
    (native : settings.option "scanCustomComponents" false = false) :
    List.Forall₂ (SameFinding r f f') (buttonType.scan settings f)
      (buttonType.scan settings f') := by
  unfold buttonType
  dsimp only
  rw [native]
  refine rel_filterMap (placed_elements h) fun e e' placed => ?_
  have button : e.tag = "button" ↔ e'.tag = "button" :=
    placed.alike.tag.eq_small_iff rfl (by decide)
  unfold checkButtonType
  rw [placed.alike.hasAttribute]
  split
  · exact .none
  · by_cases is : e.tag = "button"
    · rw [if_pos is, if_pos (button.mp is)]
      exact .some (violationAt_same placed h.path (.refl _) (rel_fix_refl r _) (.some (.refl _)))
    · rw [if_neg is, if_neg fun is' => is (button.mpr is')]
      exact .none

theorem divInteractive_renamed (h : RenamedFile r f f') (settings : RuleSettings) :
    List.Forall₂ (SameFinding r f f') (divInteractive.scan settings f)
      (divInteractive.scan settings f') := by
  have blocks := placed_small ["div", "span"] h (by decide)
  refine rel_map (rel_filter blocks fun e e' ⟨_, placed⟩ => ?_) fun e e' ⟨_, same, placed⟩ => ?_
  · rw [placed.alike.hasAttribute, placed.alike.hasAttribute, placed.alike.hasAttribute]
  · rw [same]
    exact violationAt_same placed h.path (.refl _) .none (.some (.refl _))

/-! ### Headings -/

theorem headingOrder_renamed (h : RenamedFile r f f') (settings : RuleSettings) :
    List.Forall₂ (SameFinding r f f') (headingOrder.scan settings f)
      (headingOrder.scan settings f') := by
  have headings := placed_small headingTags h (by decide)
  refine rel_filterMap (rel_zip headings (List.forall₂_drop 1 headings))
    fun (previous, current) (previous', current') ⟨⟨same, _⟩, same', placed⟩ => ?_
  dsimp only at same same' placed ⊢
  unfold checkStep levelOf
  rw [same, same']
  split
  · exact .some (violationAt_same placed h.path (.refl _) .none (.some (.refl _)))
  · exact .none

/-! ### Order of focus -/

theorem integerValue?_eq {a a' : Attribute} (h : AttributeAlike r f f' a a') :
    integerValue? a' = integerValue? a := by
  have expression := h.expression?
  have text := h.stringValue?
  unfold integerValue?
  generalize a.expression? = c at expression ⊢
  generalize a'.expression? = d at expression ⊢
  cases expression with
  | none => rw [text]
  | @some n n' alike =>
    have inner := alike.unwrapThrough (p := (· = .parenthesized)) fun k is => by
      rw [of_decide_eq_true is]
      decide
    dsimp only
    rw [show n'.unwrap.kind = n.unwrap.kind from inner.kind]
    split
    · rename_i number
      obtain ⟨-, -⟩ := h
      have same := inner.alike.verbatim
        (by rw [isVerbatim, show (n.unwrapThrough _).kind = .number from number]; rfl)
      exact congrArg Text.readInteger? same
    · rfl

theorem positiveTabIndex_renamed (h : RenamedFile r f f') (settings : RuleSettings) :
    List.Forall₂ (SameFinding r f f') (positiveTabIndex.scan settings f)
      (positiveTabIndex.scan settings f') := by
  refine rel_filterMap (placed_elements h) fun e e' placed => ?_
  have alike := placed.alike
  have found := rel_find? (rel_mem_zip alike.attributes) (p := (·.name = "tabIndex"))
    (q := (·.name = "tabIndex")) fun a a' both => by rw [both.2.name]
  unfold checkTabIndex
  refine rel_bind found fun a a' ⟨_, mem, attr⟩ => ?_
  rw [integerValue?_eq attr]
  cases integerValue? a with
  | none => exact .none
  | some value =>
    simp only [Option.bind_eq_bind, Option.bind_some]
    split
    · refine .some ⟨rfl, ?_, .onAttribute placed.mem mem ?_ ?_ rfl rfl, ?_, .refl _,
        rel_fix_refl r _, .some alike.tag_reads⟩
      · change e'.file.path = e.file.path
        rw [alike.file, alike.file', h.path]
      · change e.file.nodePosition a.node = f.nodePosition a.node
        rw [alike.file]
      · change e'.file.nodePosition a'.node = f'.nodePosition a'.node
        rw [alike.file']
      · exact ⟨_, _, alike.tag_reads, rfl, rfl⟩
    · exact .none

/-! ### Emoji -/

theorem isLabelledSpan_eq {s s' : Site} (h : SiteAlike r f f' s s') :
    isLabelledSpan f' s' = isLabelledSpan f s := by
  obtain ⟨n, above⟩ := s
  obtain ⟨n', above'⟩ := s'
  obtain ⟨-, around⟩ := h
  cases around with
  | nil => rfl
  | @cons parent parent' above above' first rest =>
    unfold isLabelledSpan
    dsimp only
    rw [first.kind]
    by_cases kind : parent.kind = .jsxElement
    · have alike : ElementAlike r f f' ⟨f, parent, above⟩ ⟨f', parent', above'⟩ :=
        ⟨by rw [kind]; rfl, first, rest⟩
      have span : Element.tag ⟨f, parent, above⟩ = "span" ↔
          Element.tag ⟨f', parent', above'⟩ = "span" :=
        alike.tag.eq_small_iff rfl (by decide)
      rw [alike.literal?, alike.hasAttribute, decide_eq_decide.mpr span]
    · simp [kind]

theorem emojiAlt_renamed (h : RenamedFile r f f') (settings : RuleSettings) :
    List.Forall₂ (SameFinding r f f') (emojiAlt.scan settings f) (emojiAlt.scan settings f') := by
  have texts := h.site.descendantsWhere (p := (· = .jsxText)) fun n is => by
    rw [Node.isSought, of_decide_eq_true is]
  have known := (List.forall₂_and_left (p := fun s => s.node.kind = .jsxText) _ _).mpr
    ⟨fun s mem => by simpa using (List.mem_filter.mp mem).2, rel_mem_zip texts⟩
  refine rel_flatMap (rel_filter known fun s s' both => ?_) fun s s' both => ?_
  · rw [isLabelledSpan_eq both.2.2]
  · obtain ⟨_, kind, mem, alike⟩ := both
    dsimp only
    rw [alike.node.alike.verbatim (by rw [isVerbatim, kind]; rfl)]
    refine rel_map (List.forall₂_same.mpr fun _ _ => rfl) fun m m' same => ?_
    subst same
    exact ⟨rfl, h.path, .inText mem rfl rfl rfl rfl, ⟨_, _, .refl _, rfl, rfl⟩, .refl _,
      rel_fix_refl r _, .none⟩

end JsxAudit.Rule
