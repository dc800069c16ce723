import JsxAudit.Proofs.Label.Wording
import JsxAudit.Proofs.Rule.Deferred

/-!
Deferred texts that show nothing.

A text that is found without a service can be blank in four ways, each of which takes something over
from the source that has nothing to show: an icon whose name is only its ending, a placeholder of
blanks, a field's name of separators, or a route that ends in a blank segment. `Wordless` says so of
a fix, and `isBlank_iff_wordless` that there are no other ways.
-/

namespace JsxAudit.Audit.Deferred

open Label Text

variable {params : Params} {text : String}

/-! ### Facts with nothing to show -/

/-- The label of a control is made from an icon whose name has nothing before its ending, and from
nothing else. -/
def isWordlessIcon (icon variable' : Option String) : Bool :=
  icon.any (fun icon => isBlankText (withoutSuffix "Icon" icon)) && variable'.isNone

/-- The label of a field is made from a placeholder of blanks, or from a name of separators. -/
def isWordlessField : Option String → Option String → Bool
  | some placeholder, _ => isBlankText placeholder
  | none, name => name.any fun name => name.toList.all isSeparator

/-- What a title is made from: the last segment of the route, or the component. -/
def titleSource (route component : String) : String :=
  ((splitOn '/' route).filter (· != "")).getLast?.getD component

/-- A title is made from something, but this has nothing to show. -/
def isWordlessTitle (route component : String) : Bool :=
  titleSource route component != "" && isBlankText (titleSource route component)

/-! ### Texts of resolvers -/

theorem isBlankText_iconText (found : iconText params = .ok text) :
    isBlankText text = isWordlessIcon (given? "icon" params) (given? "variable" params) := by
  -- The label comes first, and what may be put around it last.
  have around (label : String) (icon : Option String)
      (same : isBlankText label = icon.any fun icon => isBlankText (withoutSuffix "Icon" icon))
      (written : (given? "variable" params).elim label (LoopVariable.wrap label) = text) :
      isBlankText text = isWordlessIcon icon (given? "variable" params) := by
    subst written
    unfold isWordlessIcon
    cases given? "variable" params with
    | some variable' => rw [Option.elim_some, isBlankText_wrap, Option.isNone_some, Bool.and_false]
    | none => rw [Option.elim_none, Option.isNone_none, Bool.and_true, same]
  unfold iconText at found
  dsimp only at found
  generalize (params.lookup "locale").getD "en" = locale at found
  cases named : given? "icon" params with
  | some icon =>
    rw [named] at found
    simp only [pure_bind] at found
    refine around _ (some icon) (isBlankText_iconLabel icon locale) ?_
    generalize iconLabel icon locale = label at found ⊢
    cases put : given? "variable" params <;> rw [put] at found <;> exact Except.ok.inj found
  | none =>
    rw [named] at found
    cases known : controlLabel? ((params.lookup "term").getD "Button") locale with
    | some label =>
      simp only [known, pure_bind] at found
      refine around label none (isBlankText_controlLabel? known) ?_
      cases put : given? "variable" params <;> rw [put] at found <;> exact Except.ok.inj found
    | none =>
      rw [known] at found
      cases found

theorem isBlankText_inputText (params : Params) :
    isBlankText (inputText params) =
      isWordlessField (given? "placeholder" params) (given? "name" params) := by
  unfold inputText
  cases given? "placeholder" params with
  | some text => rfl
  | none =>
    cases given? "name" params with
    | some name => exact isBlankText_fieldWords name
    | none =>
      dsimp only
      split <;> rfl

theorem isBlankText_titleText (params : Params) :
    isBlankText (titleText params) = isWordlessTitle ((params.lookup "route").getD "")
      ((params.lookup "component").getD "") := by
  unfold titleText isWordlessTitle titleSource
  dsimp only
  split
  next empty =>
    rw [empty]
    rfl
  next source given =>
    rw [isBlankText_capitalize, bne_iff_ne.mpr given, Bool.true_and]

/-! ### Facts as parameters -/

theorem filled?_filled? (value : Option String) : filled? (filled? value) = filled? value := by
  simp [filled?, Option.filter_filter]

theorem getD_filled? (value : Option String) : (filled? value).getD "" = value.getD "" := by
  cases value with
  | none => rfl
  | some text => by_cases empty : text = "" <;> simp [filled?, Option.filter, empty]

section

variable {facts : List (String × Option String)} {key : String} {value : Option String}

theorem given?_filledParams (distinct : (facts.map (·.1)).Nodup)
    (known : facts.lookup key = some value) :
    given? key (filledParams facts) = filled? value := by
  have given : (filledParams facts).lookup key = filled? value := by
    rw [lookup_filledParams distinct, known, Option.bind_some]
  calc given? key (filledParams facts)
    _ = filled? ((filledParams facts).lookup key) := rfl
    _ = filled? value := by rw [given, filled?_filled?]

theorem getD_lookup_filledParams (distinct : (facts.map (·.1)).Nodup)
    (known : facts.lookup key = some value) :
    ((filledParams facts).lookup key).getD "" = value.getD "" := by
  rw [lookup_filledParams distinct, known, Option.bind_some, getD_filled?]

end

/-! ### Resolved values -/

theorem resolveValue_deferred {name : String} {r : Resolver}
    (known : Resolver.ofName? name = some r) (params : Params) :
    resolveValue (.deferred name params) = r.run params := by
  rw [resolveValue, known]

/-- A text that is resolved is the text that was found, and the placeholder is not blank. -/
theorem resolve_eq_ok_iff {value : FixValue} {answer : Option String} :
    resolve value = .ok answer ↔ ∃ text, resolveValue value = .ok text ∧
      answer = if text = placeholder then none else some text := by
  unfold resolve
  cases resolveValue value with
  | error e => simp [bind, Except.bind]
  | ok text => simp [bind, Except.bind, pure, Except.pure, eq_comm]

theorem any_isBlankText (text : String) :
    (if text = placeholder then none else some text).any isBlankText = isBlankText text := by
  split
  next sentinel =>
    rw [sentinel]
    decide
  next => rfl

end JsxAudit.Audit.Deferred

namespace JsxAudit.Rule

open Source Audit Label Deferred Text

variable {f : SourceFile} {v : Violation} {settings : RuleSettings} {fix : Fix}

/-! ### Fixes of rules -/

/-- The fix that labels a field. -/
def fieldFix (e : Element) : Fix where
  type := .insertAttr
  value := FixValue.deferredOf "input-label"
    [("placeholder", literal? e "placeholder"), ("name", literal? e "name"), ("tag", some e.tag)]
  attr := some "aria-label"

/-- What the text of a fix is made from has nothing to show. -/
inductive Wordless (settings : RuleSettings) (f : SourceFile) : Fix → Prop
  | icon {kind : ControlKind} {e : Element} : e ∈ f.elements →
      isWordlessIcon (filled? (settings.icons.iconName? e)) (filled? (LoopVariable.find? e false)) →
      Wordless settings f (labelFix kind settings e)
  | field {e : Element} : e ∈ f.elements →
      isWordlessField (filled? (literal? e "placeholder")) (filled? (literal? e "name")) →
      Wordless settings f (fieldFix e)
  | title : isWordlessTitle ((PageContext.of f).route.getD "") (PageContext.of f).component →
      Wordless settings f (titleFix f)

theorem isBlankText_labelFix {kind : ControlKind} {e : Element} {text : String}
    (found : resolveValue (labelFix kind settings e).value = .ok text) :
    isBlankText text = isWordlessIcon (filled? (settings.icons.iconName? e))
      (filled? (LoopVariable.find? e false)) := by
  rw [value_labelFix, resolveValue_deferred (r := .iconLabel) rfl] at found
  rw [isBlankText_iconText found, labelParams, given?_filledParams (by simp) rfl,
    given?_filledParams (by simp) rfl]

theorem isBlankText_fieldFix {e : Element} {text : String}
    (found : resolveValue (fieldFix e).value = .ok text) :
    isBlankText text =
      isWordlessField (filled? (literal? e "placeholder")) (filled? (literal? e "name")) := by
  have value : (fieldFix e).value = .deferred "input-label" (filledParams
      [("placeholder", literal? e "placeholder"), ("name", literal? e "name"),
        ("tag", some e.tag)]) := rfl
  rw [value, resolveValue_deferred (r := .inputLabel) rfl] at found
  rw [← Except.ok.inj found, isBlankText_inputText, given?_filledParams (by simp) rfl,
    given?_filledParams (by simp) rfl]

theorem isBlankText_titleFix {text : String}
    (found : resolveValue (titleFix f).value = .ok text) :
    isBlankText text = isWordlessTitle ((PageContext.of f).route.getD "")
      (PageContext.of f).component := by
  have value : (titleFix f).value = .deferred "page-title" (filledParams
      [("route", (PageContext.of f).route), ("component", some (PageContext.of f).component)]) := rfl
  rw [value, resolveValue_deferred (r := .pageTitle) rfl] at found
  rw [← Except.ok.inj found, isBlankText_titleText, getD_lookup_filledParams (by simp) rfl,
    getD_lookup_filledParams (by simp) rfl, Option.getD_some]

/-- A fix whose facts have nothing to show is written as a blank text. -/
theorem Wordless.blank (h : Wordless settings f fix) {text : String}
    (found : resolveValue fix.value = .ok text) : isBlankText text = true := by
  cases h with
  | icon _ wordless => exact (isBlankText_labelFix found).trans wordless
  | field _ wordless => exact (isBlankText_fieldFix found).trans wordless
  | title wordless => exact (isBlankText_titleFix found).trans wordless

/-! ### Reports -/

/-- Rules whose deferred texts are all found without a service. -/
def wordingRules : List Rule :=
  [buttonLabel, linkLabel, inputLabel, metadataTitle]

/-- A deferred fix that is written as a blank text has facts with nothing to show. -/
theorem wordless_of_isBlankText {rule : Rule} (wording : rule ∈ wordingRules)
    (found : v ∈ rule.scan settings f) (given : v.fix = some fix)
    (deferred : fix.isDeferred = true) {text : String} (written : resolveValue fix.value = .ok text)
    (blank : isBlankText text = true) : Wordless settings f fix := by
  have control {kind : ControlKind} (found : v ∈ scanControls kind settings f) :
      Wordless settings f fix := by
    obtain ⟨e, mem, -, ⟨-, _, _, rfl⟩ | ⟨-, rfl⟩⟩ := scanControls_cases found
    · cases given
      cases deferred
    · cases given
      exact .icon mem ((isBlankText_labelFix written).symm.trans blank)
  simp only [wordingRules, List.mem_cons, List.not_mem_nil, or_false] at wording
  rcases wording with rfl | rfl | rfl | rfl
  · exact control found
  · exact control found
  · obtain ⟨e, mem, rfl⟩ := List.mem_map.mp found
    obtain ⟨mem, -⟩ := mem_elementsTagged.mp (List.mem_filter.mp mem).1
    cases given
    exact .field mem ((isBlankText_fieldFix written).symm.trans blank)
  · obtain ⟨-, message, rfl⟩ := metadataTitle_cases found
    cases given
    exact .title ((isBlankText_titleFix written).symm.trans blank)

/-- Every deferred fix of these rules has an answer without a service. It is blank if and only if
the fix is made from an icon whose name is only its ending, from a field's placeholder or name
without a word, or from a route or component without one. -/
theorem isBlank_iff_wordless {rule : Rule} (wording : rule ∈ wordingRules)
    (found : v ∈ rule.scan settings f) (given : v.fix = some fix)
    (deferred : fix.isDeferred = true) :
    ∃ answer, resolve fix.value = .ok answer ∧
      (answer.any isBlankText = true ↔ Wordless settings f fix) := by
  have known : rule ∈ Rule.all ∧ rule.type = .ai := by
    simp only [wordingRules, List.mem_cons, List.not_mem_nil, or_false] at wording
    rcases wording with rfl | rfl | rfl | rfl <;> simp [Rule.all] <;> rfl
  obtain ⟨answer, resolved⟩ := hasOfflineText_of_mem_scan known.1 known.2 found given
  obtain ⟨text, written, rfl⟩ := resolve_eq_ok_iff.mp resolved
  refine ⟨_, resolved, ?_⟩
  rw [any_isBlankText]
  constructor
  · intro blank
    exact wordless_of_isBlankText wording found given deferred written blank
  · intro wordless
    exact wordless.blank written

/-- A button that shows an icon without any other name is given an empty label. -/
theorem isBlank_iff_wordless_icon :
    ∃ f ∈ SourceFile.parse "a.tsx" "<button><Icon/></button>;",
      ∃ v ∈ buttonLabel.scan {} f, ∃ fix, v.fix = some fix ∧ fix.isDeferred = true ∧
        resolve fix.value = .ok (some "") ∧ Wordless {} f fix := by
  have reported : ∃ f ∈ SourceFile.parse "a.tsx" "<button><Icon/></button>;",
      ∃ v ∈ buttonLabel.scan {} f, v.fix.any (·.isDeferred) = true ∧
        v.fix.map (fun fix => resolve fix.value) = some (.ok (some "")) := by
    decide +kernel
  obtain ⟨f, parsed, v, found, deferred, resolved⟩ := reported
  obtain ⟨fix, given, resolved⟩ := Option.map_eq_some_iff.mp resolved
  have deferred : fix.isDeferred = true := by simpa [given] using deferred
  have wording : buttonLabel ∈ wordingRules := List.mem_cons_self
  obtain ⟨answer, again, iff⟩ := isBlank_iff_wordless wording found given deferred
  obtain rfl := Except.ok.inj (resolved.symm.trans again)
  exact ⟨f, parsed, v, found, fix, given, deferred, resolved, iff.mp (by decide)⟩

end JsxAudit.Rule
