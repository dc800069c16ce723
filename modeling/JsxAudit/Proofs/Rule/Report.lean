import JsxAudit.Rule.Registry

/-!
What the rules report.

A report carries the id of its rule and the path of its file, and nothing of it depends on any other
file. `Prescribed` lists the shapes that a fix can have, each with what the rule has seen when it
prescribes it; `reports_of_mem_scan` proves it for every rule there is. What is true of every fix is
proved from the shapes, and never by going through the rules again.
-/

namespace JsxAudit.Rule

open Source Audit Label

variable {f : SourceFile} {e : Element} {v : Violation} {settings : RuleSettings}

/-! ### Elements -/

theorem file_of_mem_elements (h : e ∈ f.elements) : e.file = f := by
  obtain ⟨s, -, rfl⟩ := List.mem_map.mp h
  rfl

theorem mem_elementsTagged {tags : List String} :
    e ∈ f.elementsTagged tags ↔ e ∈ f.elements ∧ e.tag ∈ tags := by
  rw [SourceFile.elementsTagged, List.mem_filter, List.contains_iff_mem]

theorem mem_tagsWith {native tag : String} {component : Option String} (given : native ≠ "")
    (h : tag ∈ tagsWith native component) : tag ≠ "" := by
  rw [tagsWith, List.mem_cons] at h
  rcases h with rfl | h
  · exact given
  · obtain ⟨-, named⟩ := Option.filter_eq_some_iff.mp (Option.mem_toList.mp h)
    simpa using named

/-! ### Shapes of fixes -/

/-- The violation is raised on an element of the file. -/
structure RaisedOn (f : SourceFile) (v : Violation) (e : Element) : Prop where
  mem : e ∈ f.elements
  anchor : v.anchor = some e.anchor
  tag : v.tag = some e.tag

/-- Names of the attributes that fixes give to elements. -/
def labelAttributes : List String :=
  ["alt", "aria-label", "rel", "type", "lang"]

/-- Rules whose fixes are carried out in a way of their own. -/
def ownEdits : List String :=
  ["next-link-no-nested-a", "emoji-alt", "no-positive-tabindex"]

/-- The fixes that rules prescribe, and what they have seen. -/
inductive Prescribed (f : SourceFile) (v : Violation) : Fix → Prop
  | insertion {e : Element} {name : String} {value : FixValue} :
      v.rule ∉ ownEdits → RaisedOn f v e → e.tag ≠ "" → name ∈ labelAttributes →
      e.hasAttribute name = false → Prescribed f v ⟨.insertAttr, value, some name⟩
  | replacement {e : Element} {name : String} {value : FixValue} :
      v.rule ∉ ownEdits → RaisedOn f v e → e.tag ≠ "" → name ∈ labelAttributes →
      e.hasAttribute name = true → Prescribed f v ⟨.replaceAttr, value, some name⟩
  | tabIndex {e : Element} {attr : Attribute} {n : Int} :
      v.rule = "no-positive-tabindex" → RaisedOn f v e →
      v.element = Text.takeChars Violation.elementLimit e.tag →
      e.attribute? "tabIndex" = some attr → integerValue? attr = some n → 0 < n →
      Prescribed f v ⟨.replaceAttr, .literal "0", some "tabIndex"⟩
  | nestedAnchor {e : Element} :
      v.rule = "next-link-no-nested-a" → RaisedOn f v e →
      f.localDefault? "next/link" "Link" = some e.tag → (nestedAnchor? e).isSome →
      Prescribed f v ⟨.removeElement, .literal "", none⟩
  | emoji {s : Syntax.Site} {m : EmojiMatch} :
      s ∈ f.site.descendantsWhere (· = .jsxText) → m ∈ findEmoji (f.nodeText s.node) →
      v = emojiViolation f s.node.start (f.nodeText s.node) m →
      Prescribed f v ⟨.wrapElement, .literal (emojiName m.emoji), none⟩
  | title {value : FixValue} :
      v.rule = "next-metadata-title" → v.anchor = some 0 → hasTitle f = false →
      Prescribed f v ⟨.insertMetadata, value, some "title"⟩

/-- A report of one rule on one file. -/
structure Reports (id : String) (f : SourceFile) (v : Violation) : Prop where
  rule : v.rule = id
  path : v.filePath = f.path
  prescribed : ∀ fix, v.fix = some fix → Prescribed f v fix

/-! ### Reports on elements -/

section

variable {id message : String} {fix : Option Fix} {snippet : Option String}

theorem violationAt_path (mem : e ∈ f.elements) :
    (violationAt id e message fix snippet).filePath = f.path :=
  congrArg SourceFile.path (file_of_mem_elements mem)

theorem raisedOn_violationAt (mem : e ∈ f.elements) :
    RaisedOn f (violationAt id e message fix snippet) e :=
  ⟨mem, rfl, rfl⟩

/-- A report without a fix. -/
theorem reports_nothing (mem : e ∈ f.elements) :
    Reports id f (violationAt id e message none snippet) :=
  ⟨rfl, violationAt_path mem, nofun⟩

variable {name : String} {value : FixValue}

/-- A report that an attribute is missing. -/
theorem reports_insertion (general : id ∉ ownEdits) (mem : e ∈ f.elements) (tagged : e.tag ≠ "")
    (label : name ∈ labelAttributes) (missing : e.hasAttribute name = false) :
    Reports id f (violationAt id e message (some ⟨.insertAttr, value, some name⟩) snippet) := by
  refine ⟨rfl, violationAt_path mem, fun fix given => ?_⟩
  cases given
  exact .insertion general (raisedOn_violationAt mem) tagged label missing

/-- A report that an attribute says the wrong thing. -/
theorem reports_replacement (general : id ∉ ownEdits) (mem : e ∈ f.elements)
    (tagged : e.tag ≠ "") (label : name ∈ labelAttributes) (found : e.hasAttribute name = true) :
    Reports id f (violationAt id e message (some ⟨.replaceAttr, value, some name⟩) snippet) := by
  refine ⟨rfl, violationAt_path mem, fun fix given => ?_⟩
  cases given
  exact .replacement general (raisedOn_violationAt mem) tagged label found

end

/-! ### Images -/

theorem classify_eq_missing {value : Option String} {isExpression : Bool} :
    classify value isExpression = .missing ↔ value = none := by
  cases value with
  | none => simp [classify]
  | some text =>
    have given : classify (some text) isExpression ≠ .missing := by
      unfold classify
      dsimp only
      split
      · nofun
      · split
        · nofun
        · split
          · nofun
          · split
            · split <;> nofun
            · nofun
    simp [given]

theorem altValue_eq_none : (altValue e).1 = none ↔ e.hasAttribute "alt" = false := by
  unfold altValue Element.hasAttribute
  split
  · rename_i missing
    simp [missing]
  · rename_i attr found
    rw [found]
    split
    · simp
    · split
      · simp
      · split <;> simp

/-- The fix that describes an image. -/
def altFix (type : FixType) (e : Element) : Fix :=
  ⟨type, FixValue.deferredOf "img-alt" [("src", sourceText? e)], some "alt"⟩

/-- What is reported on an image: it has no description, one that says nothing, or one that cannot be
told. -/
theorem imgAlt_cases (h : v ∈ imgAlt.scan settings f) :
    ∃ e ∈ f.elements, e.tag ≠ "" ∧ ∃ message fix, v = violationAt "img-alt" e message fix none ∧
      (fix = none ∨ e.hasAttribute "alt" = false ∧ fix = some (altFix .insertAttr e) ∨
        e.hasAttribute "alt" = true ∧ fix = some (altFix .replaceAttr e)) := by
  obtain ⟨e, mem, found⟩ := List.mem_filterMap.mp h
  obtain ⟨mem, tag⟩ := mem_elementsTagged.mp mem
  refine ⟨e, mem, mem_tagsWith (by decide) tag, ?_⟩
  have alt := altValue_eq_none (e := e)
  have missing : classify (altValue e).1 (altValue e).2 = .missing ↔ (altValue e).1 = none :=
    classify_eq_missing
  have given : classify (altValue e).1 (altValue e).2 ≠ .missing → e.hasAttribute "alt" = true := by
    intro other
    rw [← Bool.not_eq_false]
    exact fun no => other (missing.mpr (alt.mpr no))
  unfold checkAlt at found
  cases worth : classify (altValue e).1 (altValue e).2 with
  | missing =>
    simp only [worth, Option.some.injEq] at found
    exact ⟨_, _, found.symm, .inr (.inl ⟨alt.mp (missing.mp worth), rfl⟩)⟩
  | meaningless =>
    simp only [worth, Option.some.injEq] at found
    exact ⟨_, _, found.symm, .inr (.inr ⟨given (by rw [worth]; nofun), rfl⟩)⟩
  | decorative =>
    simp only [worth] at found
    split at found
    · exact ⟨_, _, (Option.some.inj found).symm,
        .inr (.inr ⟨given (by rw [worth]; nofun), rfl⟩)⟩
    · cases found
  | dynamic =>
    simp only [worth] at found
    split at found
    · cases found
    · exact ⟨_, _, (Option.some.inj found).symm, .inl rfl⟩
  | valid =>
    simp only [worth] at found
    cases found

theorem imgAlt_reports (h : v ∈ imgAlt.scan settings f) : Reports "img-alt" f v := by
  obtain ⟨e, mem, tagged, message, fix, rfl, cases⟩ := imgAlt_cases h
  rcases cases with rfl | ⟨missing, rfl⟩ | ⟨present, rfl⟩
  · exact reports_nothing mem
  · exact reports_insertion (by decide) mem tagged (by decide) missing
  · exact reports_replacement (by decide) mem tagged (by decide) present

theorem imageSizes_reports (h : v ∈ imageSizes.scan settings f) :
    Reports "next-image-sizes" f v := by
  unfold imageSizes at h
  dsimp only at h
  split at h
  · cases h
  · obtain ⟨e, mem, rfl⟩ := List.mem_map.mp h
    exact reports_nothing (mem_elementsTagged.mp (List.mem_filter.mp mem).1).1

/-! ### Accessible names -/

/-- What is reported on a control: its label should name an item, or it has none. -/
theorem scanControls_cases {kind : ControlKind} (h : v ∈ scanControls kind settings f) :
    ∃ e ∈ f.elements, e.tag ∈ kind.tags f ∧
      ((e.hasAttribute "aria-label" = true ∧ ∃ message text, v = violationAt kind.rule e message
        (some ⟨.replaceAttr, .literal text, some "aria-label"⟩) none) ∨
      (e.hasAttribute "aria-label" = false ∧
        v = violationAt kind.rule e kind.message (some (labelFix kind settings e)) none)) := by
  obtain ⟨e, mem, found⟩ := List.mem_filterMap.mp h
  obtain ⟨mem, tag⟩ := mem_elementsTagged.mp mem
  refine ⟨e, mem, tag, ?_⟩
  unfold checkControl at found
  split at found
  next => cases found
  next =>
    split at found
    next labelled =>
      unfold nameItem? at found
      simp only [Option.bind_eq_bind, Option.bind_eq_some_iff] at found
      obtain ⟨label, -, item, -, eq⟩ := found
      exact .inl ⟨labelled, _, _, (Option.some.inj eq).symm⟩
    next unlabelled =>
      split at found
      next => cases found
      next => exact .inr ⟨by simpa using unlabelled, (Option.some.inj found).symm⟩

theorem scanControls_reports {kind : ControlKind} (general : kind.rule ∉ ownEdits)
    (tags : ∀ tag ∈ kind.tags f, tag ≠ "") (h : v ∈ scanControls kind settings f) :
    Reports kind.rule f v := by
  obtain ⟨e, mem, tag, ⟨labelled, _, _, rfl⟩ | ⟨unlabelled, rfl⟩⟩ := scanControls_cases h
  · exact reports_replacement general mem (tags _ tag) (by decide) labelled
  · exact reports_insertion general mem (tags _ tag) (by decide) unlabelled

theorem buttonLabel_reports (h : v ∈ buttonLabel.scan settings f) : Reports "button-label" f v := by
  refine scanControls_reports (by decide) ?_ h
  intro tag mem
  rw [List.mem_singleton.mp mem]
  decide

theorem linkLabel_reports (h : v ∈ linkLabel.scan settings f) : Reports "link-label" f v :=
  scanControls_reports (by decide) (fun _ mem => mem_tagsWith (by decide) mem) h

theorem inputLabel_reports (h : v ∈ inputLabel.scan settings f) : Reports "input-label" f v := by
  obtain ⟨e, mem, rfl⟩ := List.mem_map.mp h
  obtain ⟨mem, unlabelled⟩ := List.mem_filter.mp mem
  obtain ⟨mem, tag⟩ := mem_elementsTagged.mp mem
  refine reports_insertion (by decide) mem ?_ (by decide) ?_
  · rintro none
    rw [none] at tag
    exact absurd tag (by decide)
  · simp only [isLabelled, Bool.not_eq_true', Bool.or_eq_false_iff] at unlabelled
    exact unlabelled.1.1.1.2

/-! ### Pages -/

/-- The fix that gives a page a title. -/
def titleFix (f : SourceFile) : Fix where
  type := .insertMetadata
  value := FixValue.deferredOf "page-title"
    [("route", (PageContext.of f).route), ("component", some (PageContext.of f).component)]
  attr := some "title"

/-- What is reported on a page: it has no title. -/
theorem metadataTitle_cases (h : v ∈ metadataTitle.scan settings f) :
    hasTitle f = false ∧ ∃ message,
      v = fileViolation "next-metadata-title" f "page" message (some (titleFix f)) := by
  unfold metadataTitle at h
  dsimp only at h
  split at h
  next => cases h
  next needed =>
    simp only [Bool.or_eq_true, not_or, Bool.not_eq_true] at needed
    exact ⟨needed.1.2, _, List.mem_singleton.mp h⟩

theorem metadataTitle_reports (h : v ∈ metadataTitle.scan settings f) :
    Reports "next-metadata-title" f v := by
  obtain ⟨needed, message, rfl⟩ := metadataTitle_cases h
  refine ⟨rfl, rfl, fun fix given => ?_⟩
  cases given
  exact .title rfl rfl needed

theorem htmlLang_reports (h : v ∈ htmlLang.scan settings f) : Reports "html-lang" f v := by
  unfold htmlLang at h
  dsimp only at h
  split at h
  · cases h
  · obtain ⟨e, mem, rfl⟩ := List.mem_map.mp h
    obtain ⟨mem, missing⟩ := List.mem_filter.mp mem
    obtain ⟨mem, tag⟩ := mem_elementsTagged.mp mem
    refine reports_insertion (by decide) mem ?_ (by decide) (by simpa using missing)
    rw [List.mem_singleton.mp tag]
    decide

theorem skipNav_reports (h : v ∈ skipNav.scan settings f) : Reports "next-skip-nav" f v := by
  unfold skipNav at h
  dsimp only at h
  split at h
  · cases h
  · cases List.mem_singleton.mp h
    exact ⟨rfl, rfl, nofun⟩

/-! ### Content -/

theorem emojiAlt_reports (h : v ∈ emojiAlt.scan settings f) : Reports "emoji-alt" f v := by
  obtain ⟨s, mem, found⟩ := List.mem_flatMap.mp h
  obtain ⟨m, emoji, rfl⟩ := List.mem_map.mp found
  refine ⟨rfl, rfl, fun fix given => ?_⟩
  cases given
  exact .emoji (List.mem_filter.mp mem).1 emoji rfl

theorem headingOrder_reports (h : v ∈ headingOrder.scan settings f) :
    Reports "heading-order" f v := by
  obtain ⟨⟨previous, current⟩, mem, found⟩ := List.mem_filterMap.mp h
  have heading := List.mem_of_mem_drop (List.of_mem_zip mem).2
  dsimp only at found
  unfold checkStep at found
  split at found
  · cases found
    exact reports_nothing (mem_elementsTagged.mp heading).1
  · cases found

/-! ### Links -/

theorem linkNoopener_reports (h : v ∈ linkNoopener.scan settings f) :
    Reports "link-noopener" f v := by
  obtain ⟨e, mem, found⟩ := List.mem_filterMap.mp h
  obtain ⟨mem, tag⟩ := mem_elementsTagged.mp mem
  split at found
  · simp only [Option.bind_eq_bind, Option.bind_eq_some_iff] at found
    obtain ⟨fix, relation, eq⟩ := found
    cases eq
    unfold relationFix? at relation
    split at relation
    · rename_i missing
      cases relation
      refine reports_insertion (by decide) mem (mem_tagsWith (by decide) tag) (by decide) ?_
      rw [Element.hasAttribute, missing]
      rfl
    · rename_i attr there
      simp only [Option.bind_eq_bind, Option.bind_eq_some_iff] at relation
      obtain ⟨current, -, relation⟩ := relation
      split at relation
      · cases relation
      · cases relation
        refine reports_replacement (by decide) mem (mem_tagsWith (by decide) tag) (by decide) ?_
        rw [Element.hasAttribute, there]
        rfl
  · cases found

theorem nestedAnchor_reports (h : v ∈ nestedAnchor.scan settings f) :
    Reports "next-link-no-nested-a" f v := by
  unfold nestedAnchor at h
  dsimp only at h
  split at h
  · cases h
  · rename_i link imported
    obtain ⟨e, mem, rfl⟩ := List.mem_map.mp h
    obtain ⟨mem, nested⟩ := List.mem_filter.mp mem
    obtain ⟨mem, tag⟩ := mem_elementsTagged.mp mem
    refine ⟨rfl, violationAt_path mem, fun fix given => ?_⟩
    cases given
    refine .nestedAnchor rfl (raisedOn_violationAt mem) ?_ nested
    rw [imported, List.mem_singleton.mp tag]

/-! ### Controls -/

theorem buttonType_reports (h : v ∈ buttonType.scan settings f) : Reports "button-type" f v := by
  obtain ⟨e, mem, found⟩ := List.mem_filterMap.mp h
  unfold checkButtonType at found
  split at found
  · cases found
  · rename_i missing
    split at found
    · rename_i tag
      cases found
      refine reports_insertion (by decide) mem ?_ (by decide) (by simpa using missing)
      rw [tag]
      decide
    · split at found
      · cases found
        exact reports_nothing mem
      · cases found

theorem positiveTabIndex_reports (h : v ∈ positiveTabIndex.scan settings f) :
    Reports "no-positive-tabindex" f v := by
  obtain ⟨e, mem, found⟩ := List.mem_filterMap.mp h
  unfold checkTabIndex at found
  simp only [Option.bind_eq_bind, Option.bind_eq_some_iff] at found
  obtain ⟨attr, there, n, number, found⟩ := found
  split at found
  · rename_i positive
    cases found
    refine ⟨rfl, congrArg SourceFile.path (file_of_mem_elements mem), fun fix given => ?_⟩
    cases given
    exact .tabIndex rfl ⟨mem, rfl, rfl⟩ rfl there number positive
  · cases found

theorem divInteractive_reports (h : v ∈ divInteractive.scan settings f) :
    Reports "no-div-interactive" f v := by
  obtain ⟨e, mem, rfl⟩ := List.mem_map.mp h
  exact reports_nothing (mem_elementsTagged.mp (List.mem_filter.mp mem).1).1

/-! ### All rules -/

/-- What a rule reports carries its id and the path of the file, and a fix of one of the shapes. -/
theorem reports_of_mem_scan {r : Rule} (known : r ∈ Rule.all) (h : v ∈ r.scan settings f) :
    Reports r.id f v := by
  simp only [Rule.all, List.mem_cons, List.not_mem_nil, or_false] at known
  rcases known with rfl | rfl | rfl | rfl | rfl | rfl | rfl | rfl | rfl | rfl | rfl | rfl | rfl |
    rfl | rfl
  · exact imgAlt_reports h
  · exact buttonLabel_reports h
  · exact linkLabel_reports h
  · exact inputLabel_reports h
  · exact metadataTitle_reports h
  · exact htmlLang_reports h
  · exact emojiAlt_reports h
  · exact linkNoopener_reports h
  · exact buttonType_reports h
  · exact positiveTabIndex_reports h
  · exact nestedAnchor_reports h
  · exact skipNav_reports h
  · exact imageSizes_reports h
  · exact headingOrder_reports h
  · exact divInteractive_reports h

end JsxAudit.Rule
