import JsxAudit.Proofs.Rule.Renamed
import JsxAudit.Proofs.Text.Occurrence

/-!
Every rule finds the same before and after a component of a file gets another name
(`scan_renamed`), where the questions about names themselves have the same answers (`LooksAlike` for
those about icons and images).
-/

namespace JsxAudit

open Source Audit Label Syntax

/-! ### Composed texts -/

namespace Renaming.Reads

variable {r : Renaming} {s s' : String}

/-- Texts with a mark between them read like others with the mark between them. -/
theorem intercalate {mark : String} {ss ss' : List String} (ne : mark.toList ≠ [])
    (apart : ∀ c ∈ mark.toList, isNameChar c = false) (h : List.Forall₂ r.Reads ss ss') :
    r.Reads (mark.intercalate ss) (mark.intercalate ss') := by
  induction h with
  | nil => exact .refl _
  | @cons s s' ss ss' first rest ih =>
    cases rest with
    | nil =>
      rw [String.intercalate_singleton, String.intercalate_singleton]
      exact first
    | cons =>
      rw [String.intercalate_cons_cons, String.intercalate_cons_cons]
      have edge (t : String) (cs : List Char) : Text.Seam (t ++ mark).toList cs := by
        intro c mem d _
        rw [String.toList_append, List.getLast?_append_of_ne_nil _ ne] at mem
        rw [apart c (List.mem_of_mem_getLast? mem), Bool.false_and]
      have marked := first.before fun c mem => apart c (List.mem_of_mem_head? mem)
      exact marked.append ih (edge s _) (edge s' _)

/-- A label with one variable reads like the same label with the other variable. -/
theorem wrap (label : String) (h : r.Reads s s') :
    r.Reads (LoopVariable.wrap label s) (LoopVariable.wrap label s') := by
  let left := '{' :: LoopVariable.tick :: LoopVariable.escapeTemplate label.toList
  have parts (t : String) : LoopVariable.wrap label t = String.ofList (left ++ [' ', '$', '{']) ++ t ++
      String.ofList ['}', LoopVariable.tick, '}'] := by
    rw [← String.toList_inj]
    simp [LoopVariable.wrap, LoopVariable.wrapChars, left]
  rw [parts, parts]
  refine (h.behind fun c mem => ?_).before (by simp +decide)
  rw [String.toList_ofList, List.getLast?_append_of_ne_nil _ (List.cons_ne_nil _ _)] at mem
  rw [← Option.some_inj.mp mem]
  decide

end Renaming.Reads

namespace Rule

variable {r : Renaming} {f f' : SourceFile} {e e' : Element} {tag tag' : String}

/-! ### Icons and images -/

/-- Labels of buttons and links take both names for that of an image, and both for names of
components that are no icons, or neither. -/
structure LooksAlike (r : Renaming) : Prop where
  image : r.old = "Image" ↔ r.new = "Image"
  plain : ({} : IconClassifier).plainComponents.contains r.old =
    ({} : IconClassifier).plainComponents.contains r.new

/-- Where the old name stands in a button or a link, the new one is taken for the same there. -/
def KeepsLooks (r : Renaming) (f : SourceFile) : Prop :=
  ∀ e ∈ f.elements, e.tag = "button" ∨ e.tag ∈ links.tags f →
    ∀ child ∈ e.descendantElements, child.tag = r.old → LooksAlike r

/-- An ending without a dot ends a dotted name if and only if it ends what is behind the dot. -/
theorem endsWith_fromDot {ending : String} (simple : '.' ∉ ending.toList)
    (dotted : Renaming.fromDot tag ≠ []) :
    Text.endsWith ending tag = ending.toList.isSuffixOf (Renaming.fromDot tag) := by
  have whole : Renaming.fromDot tag <:+ tag.toList := List.dropWhile_suffix _
  rw [Bool.eq_iff_iff, Text.endsWith, List.isSuffixOf_iff_suffix, List.isSuffixOf_iff_suffix]
  refine ⟨fun ends => ?_, fun ends => ends.trans whole⟩
  rcases List.suffix_or_suffix_of_suffix ends whole with inside | outside
  · exact inside
  · have dot := Renaming.mem_of_fromDot_ne dotted
    rw [← List.takeWhile_append_dropWhile (p := (· != '.')) (l := tag.toList),
      List.mem_append] at dot
    rcases dot with before | behind
    · simpa using List.mem_takeWhile_imp before
    · exact absurd (outside.subset behind) simple

/-- The name of an icon, as labels know it. -/
def isNamedIcon (tag : String) : Bool :=
  let icons : IconClassifier := {}
  !icons.svgParts.contains tag && (icons.hasIconSuffix tag || icons.isIconComponent tag)

theorem isNamedIcon_of_component {name : String} (h : IsComponentName name) :
    isNamedIcon name = !({} : IconClassifier).plainComponents.contains name := by
  have parts : ({} : IconClassifier).svgParts.contains name = false := by
    rw [← Bool.not_eq_true, List.contains_iff_mem]
    intro mem
    have small : ∀ part ∈ ({} : IconClassifier).svgParts,
      part.toList.head?.any Text.isUppercase = false := by decide
    exact h.ne_of_small (small name mem) rfl
  have pascal : IconClassifier.isPascalCase name = true := by
    rw [IconClassifier.isPascalCase, h.capital, Bool.true_and, Bool.not_eq_true',
      ← Bool.not_eq_true, List.contains_iff_mem]
    exact h.not_mem (by decide)
  rw [isNamedIcon]
  dsimp only
  rw [parts, IconClassifier.isIconComponent, pascal]
  cases plain : ({} : IconClassifier).plainComponents.contains name with
  | false => simp
  | true =>
    have suffix : ∀ plain ∈ ({} : IconClassifier).plainComponents,
      ({} : IconClassifier).hasIconSuffix plain = false := by decide
    rw [suffix name (List.contains_iff_mem.mp plain)]
    rfl

theorem isNamedIcon_of_dotted (dotted : Renaming.fromDot tag ≠ []) :
    isNamedIcon tag = "Icon".toList.isSuffixOf (Renaming.fromDot tag) := by
  have dot := Renaming.mem_of_fromDot_ne dotted
  have parts : ({} : IconClassifier).svgParts.contains tag = false := by
    rw [← Bool.not_eq_true, List.contains_iff_mem]
    intro mem
    have simple : ∀ part ∈ ({} : IconClassifier).svgParts, '.' ∉ part.toList := by decide
    exact simple tag mem dot
  have pascal : IconClassifier.isPascalCase tag = false := by
    simp [IconClassifier.isPascalCase, dot]
  rw [isNamedIcon, ← endsWith_fromDot (by decide) dotted]
  dsimp only
  rw [parts, IconClassifier.isIconComponent, pascal]
  simp [IconClassifier.hasIconSuffix]

theorem isNamedIcon_eq (tags : r.Tags tag tag') (looks : tag = r.old → LooksAlike r) :
    isNamedIcon tag = isNamedIcon tag' := by
  rcases tags with named | ⟨dotted, same⟩
  · rcases named.cases with ⟨rfl, rfl⟩ | ⟨-, rfl⟩
    · rw [isNamedIcon_of_component r.old_isComponentName,
        isNamedIcon_of_component r.new_isComponentName, (looks rfl).plain]
    · rfl
  · rw [isNamedIcon_of_dotted dotted, isNamedIcon_of_dotted (same ▸ dotted), same]

theorem isImageTag_eq (tags : r.Tags tag tag') (looks : tag = r.old → LooksAlike r) :
    ["img", "Image"].contains tag = ["img", "Image"].contains tag' := by
  have native : tag = "img" ↔ tag' = "img" := tags.eq_small_iff rfl (by decide)
  have component : tag = "Image" ↔ tag' = "Image" := by
    rcases tags with named | ⟨dotted, same⟩
    · rcases named.cases with ⟨rfl, rfl⟩ | ⟨-, rfl⟩
      · exact (looks rfl).image
      · exact Iff.rfl
    · have simple : '.' ∉ "Image".toList := by decide
      constructor
      · rintro rfl
        exact absurd (Renaming.mem_of_fromDot_ne dotted) simple
      · rintro rfl
        exact absurd (Renaming.mem_of_fromDot_ne (same ▸ dotted)) simple
  rw [Bool.eq_iff_iff]
  simp only [List.contains_iff_mem, List.mem_cons, List.not_mem_nil, or_false]
  exact or_congr native component

/-! ### Labels -/

section

variable (h : ElementAlike r f f' e e')
  (looks : ∀ child ∈ e.descendantElements, child.tag = r.old → LooksAlike r)

include h

theorem isDescribed_eq : isDescribed e' = isDescribed e := by
  have found := h.attribute? "alt"
  unfold isDescribed
  generalize e.attribute? "alt" = a at found ⊢
  generalize e'.attribute? "alt" = b at found ⊢
  cases found with
  | none => rfl
  | some alike =>
    dsimp only
    rw [alike.isBare, alike.stringValue?]

include looks

theorem linkContent_eq : links.hasContent e' = links.hasContent e := by
  have images := any_eq_of_rel (rel_mem_zip h.descendantElements)
    (p := fun child => ["img", "Image"].contains child.tag && isDescribed child)
    (q := fun child => ["img", "Image"].contains child.tag && isDescribed child)
    fun child child' ⟨mem, alike⟩ => by
      rw [isImageTag_eq alike.tag (looks child (List.of_mem_zip mem).1), isDescribed_eq alike]
  unfold links
  dsimp only
  rw [h.hasVisibleContent, images]

theorem iconName?_alike : Option.Rel r.Reads (({} : IconClassifier).iconName? e)
    (({} : IconClassifier).iconName? e') := by
  have tags : List.Forall₂ (fun tag tag' => r.Reads tag tag' ∧ isNamedIcon tag = isNamedIcon tag')
      (e.descendantElements.map (·.tag)) (e'.descendantElements.map (·.tag)) :=
    rel_map (rel_mem_zip h.descendantElements) fun child child' ⟨mem, alike⟩ =>
      ⟨alike.tag_reads, isNamedIcon_eq alike.tag (looks child (List.of_mem_zip mem).1)⟩
  exact rel_imp (rel_find? (p := isNamedIcon) (q := isNamedIcon) tags fun _ _ both => both.2)
    fun _ _ found => found.2.1

theorem labelFix_alike (kind : ControlKind) {settings : RuleSettings}
    (icons : settings.icons = {}) :
    FixAlike r (labelFix kind settings e) (labelFix kind settings e') := by
  refine ⟨rfl, rfl, ?_⟩
  unfold labelFix
  rw [icons]
  exact deferredOf_alike (.cons ⟨rfl, iconName?_alike h looks⟩
    (.cons ⟨rfl, .some (.refl _)⟩ (.cons ⟨rfl, .some (.refl _)⟩
      (.cons ⟨rfl, LoopVariable.find?_alike h false⟩ .nil))))

end

theorem nameItem?_alike (rule : String) (path : f'.path = f.path) (h : Placed r f f' e e') :
    Option.Rel (SameFinding r f f') (nameItem? rule e) (nameItem? rule e') := by
  unfold nameItem?
  rw [h.alike.literal?]
  cases (literal? e "aria-label").filter (· != "") with
  | none => exact .none
  | some label =>
    simp only [Option.bind_eq_bind, Option.bind_some]
    refine rel_bind (LoopVariable.find?_alike h.alike true) fun v v' reads => ?_
    have value : ValueAlike r (.literal (LoopVariable.wrap label v))
        (.literal (LoopVariable.wrap label v')) := .literal (reads.wrap label)
    exact .some (violationAt_same h path (.refl _) (.some ⟨rfl, rfl, value⟩) .none)

/-- A rule about the names of controls finds the same if it is about the same elements, and if what
counts as content of them is the same. -/
theorem scanControls_renamed (h : RenamedFile r f f') (kind : ControlKind)
    {settings : RuleSettings} (icons : settings.icons = {})
    (tags : ∀ tag tag', r.Tags tag tag' → (kind.tags f).contains tag = (kind.tags f').contains tag')
    (looks : ∀ e ∈ f.elements, e.tag ∈ kind.tags f →
      ∀ child ∈ e.descendantElements, child.tag = r.old → LooksAlike r)
    (content : ∀ e e', ElementAlike r f f' e e' →
      (∀ child ∈ e.descendantElements, child.tag = r.old → LooksAlike r) →
      kind.hasContent e' = kind.hasContent e) :
    List.Forall₂ (SameFinding r f f') (scanControls kind settings f)
      (scanControls kind settings f') := by
  refine rel_filterMap (placed_elementsTagged h tags) fun e e' ⟨tagged, placed⟩ => ?_
  have alike := placed.alike
  have known := looks e (List.of_mem_zip placed.mem).1 (List.contains_iff_mem.mp tagged)
  unfold checkControl
  rw [alike.hasAttribute, alike.hasAttribute, alike.isSelfClosing, content e e' alike known]
  split
  · exact .none
  · split
    · exact nameItem?_alike kind.rule h.path placed
    · split
      · exact .none
      · exact .some (violationAt_same placed h.path (.refl _)
          (.some (labelFix_alike alike known kind icons)) .none)

theorem buttonLabel_renamed (h : RenamedFile r f f') {settings : RuleSettings}
    (icons : settings.icons = {}) (looks : KeepsLooks r f) :
    List.Forall₂ (SameFinding r f f') (buttonLabel.scan settings f)
      (buttonLabel.scan settings f') := by
  have small : ∀ name ∈ ["button"],
    name.toList.head?.any Text.isUppercase = false ∧ '.' ∉ name.toList := by decide
  exact scanControls_renamed h buttons icons (fun _ _ tags => tags.contains_eq small)
    (fun e mem tagged => looks e mem (.inl (List.mem_singleton.mp tagged)))
    fun _ _ alike _ => alike.hasVisibleContent

theorem linkLabel_renamed (h : RenamedFile r f f') {settings : RuleSettings}
    (icons : settings.icons = {}) (looks : KeepsLooks r f) :
    List.Forall₂ (SameFinding r f f') (linkLabel.scan settings f) (linkLabel.scan settings f') :=
  scanControls_renamed h links icons
    (fun _ _ tags => tagsWith_contains "a" rfl (by decide) (h.localDefault? "next/link" "Link") tags)
    (fun e mem tagged => looks e mem (.inr tagged))
    fun _ _ alike known => linkContent_eq alike known

/-! ### Skip links -/

theorem isSkipLink_eq (h : ElementAlike r f f' e e')
    (skips : Text.occursIgnoringCase "skip".toList r.old.toList =
      Text.occursIgnoringCase "skip".toList r.new.toList) : isSkipLink e' = isSkipLink e := by
  have children : List.Forall₂ r.Reads (e.children.map fun s => e.file.nodeText s.node)
      (e'.children.map fun s => e'.file.nodeText s.node) :=
    rel_map h.children fun s s' alike => by
      rw [h.file, h.file']
      exact alike.node.reads
  have visible : " ".toList ≠ [] := by decide
  have source := Renaming.Reads.intercalate visible (by decide) children
  unfold isSkipLink
  rw [h.literal?, h.isSelfClosing,
    Text.occursIgnoringCase_reads source (by decide) (by decide) (by decide) skips]

theorem skipNav_renamed (h : RenamedFile r f f') (settings : RuleSettings)
    (skips : Text.occursIgnoringCase "skip".toList r.old.toList =
      Text.occursIgnoringCase "skip".toList r.new.toList) :
    List.Forall₂ (SameFinding r f f') (skipNav.scan settings f) (skipNav.scan settings f') := by
  have anchors := any_eq_of_rel (placed_small ["a"] h (by decide)) (p := isSkipLink)
    (q := isSkipLink) fun e e' ⟨_, placed⟩ => (isSkipLink_eq placed.alike skips).symm
  have slash : f'.slashPath = f.slashPath := congrArg Text.withSlashes h.path
  unfold skipNav
  dsimp only
  rw [slash, anchors]
  split
  · exact .nil
  · exact .cons (fileViolation_same h.path .none) .nil

/-! ### All rules -/

/-- When a component of a file gets a name that the file does not know, a rule finds the same as
before: at the same elements in the same order, with the same fixes, and with texts that read alike.
For labels of buttons and links this holds if both names look the same to them where it matters, and
for skip links if both or neither name speaks of skipping. -/
theorem scan_renamed (h : RenamedFile r f f') {settings : RuleSettings}
    (icons : settings.icons = {}) (native : settings.option "scanCustomComponents" false = false)
    {rule : Rule} (mem : rule ∈ Rule.all)
    (looks : rule.id ∈ ["button-label", "link-label"] → KeepsLooks r f)
    (skips : rule.id = "next-skip-nav" → Text.occursIgnoringCase "skip".toList r.old.toList =
      Text.occursIgnoringCase "skip".toList r.new.toList) :
    List.Forall₂ (SameFinding r f f') (rule.scan settings f) (rule.scan settings f') := by
  simp only [Rule.all, List.mem_cons, List.not_mem_nil, or_false] at mem
  rcases mem with rfl | rfl | rfl | rfl | rfl | rfl | rfl | rfl | rfl | rfl | rfl | rfl | rfl |
    rfl | rfl
  · exact imgAlt_renamed h settings
  · exact buttonLabel_renamed h icons (looks (by decide))
  · exact linkLabel_renamed h icons (looks (by decide))
  · exact inputLabel_renamed h settings
  · exact metadataTitle_renamed h settings
  · exact htmlLang_renamed h settings
  · exact emojiAlt_renamed h settings
  · exact linkNoopener_renamed h settings
  · exact buttonType_renamed h native
  · exact positiveTabIndex_renamed h settings
  · exact nestedAnchor_renamed h settings
  · exact skipNav_renamed h settings (skips rfl)
  · exact imageSizes_renamed h settings
  · exact headingOrder_renamed h settings
  · exact divInteractive_renamed h settings

/-- A name of a component that shows a picture, and another one. -/
def pictureRenaming : Renaming :=
  ⟨"Pic", "Art", ⟨by decide, by decide⟩, ⟨by decide, by decide⟩⟩

/-- The picture of a link gets another name. Neither name is known to labels, and the link is found
to have none before and afterwards. -/
theorem scan_renamed_picture :
    ∃ f ∈ SourceFile.parse "a.tsx" "import Pic from \"next/image\";<a><Pic/></a>;",
    ∃ f' ∈ SourceFile.parse "a.tsx" "import Art from \"next/image\";<a><Art/></a>;",
      RenamedFile pictureRenaming f f' ∧ linkLabel ∈ Rule.all ∧ KeepsLooks pictureRenaming f ∧
        (linkLabel.scan {} f).length = 1 ∧
        List.Forall₂ (SameFinding pictureRenaming f f') (linkLabel.scan {} f)
          (linkLabel.scan {} f') := by
  have renamed : ∃ f ∈ SourceFile.parse "a.tsx" "import Pic from \"next/image\";<a><Pic/></a>;",
      ∃ f' ∈ SourceFile.parse "a.tsx" "import Art from \"next/image\";<a><Art/></a>;",
        RenamedFile pictureRenaming f f' ∧ (linkLabel.scan {} f).length = 1 := by
    decide +kernel
  obtain ⟨f, parsed, f', parsed', same, one⟩ := renamed
  have alike : LooksAlike pictureRenaming := ⟨by decide, by decide⟩
  have looks : KeepsLooks pictureRenaming f := fun _ _ _ _ _ _ => alike
  have known : linkLabel ∈ Rule.all := by simp [Rule.all]
  have icons : ({} : RuleSettings).icons = {} := rfl
  have skips : linkLabel.id ≠ "next-skip-nav" := by decide
  have found := scan_renamed same icons rfl known (fun _ => looks) fun skip => absurd skip skips
  exact ⟨f, parsed, f', parsed', same, known, looks, one, found⟩

end Rule

end JsxAudit
