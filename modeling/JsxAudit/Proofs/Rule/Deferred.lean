import JsxAudit.Proofs.Label.Wording
import JsxAudit.Proofs.Rule.Report

/-!
The deferred texts of rules can be found without a service.

A rule names a resolver that there is, and gives it what it needs: the labels of buttons and links
fall back on the name of the control, which every locale has.
-/

namespace JsxAudit.Audit.Deferred

open Label

variable {params : Params}

/-! ### Parameters -/

/-- A fact that is known and not empty. -/
def filled? (value : Option String) : Option String :=
  value.filter (· != "")

/-- The facts that a deferred text is given. -/
def filledParams (facts : List (String × Option String)) : Params :=
  facts.filterMap fun (key, value) => (filled? value).map fun text => (key, text)

theorem filledParams_cons (name : String) (value : Option String)
    (rest : List (String × Option String)) :
    filledParams ((name, value) :: rest) =
      ((filled? value).map fun text => (name, text)).toList ++ filledParams rest := by
  rw [filledParams, List.filterMap_cons]
  dsimp only
  cases filled? value <;> rfl

/-- Each fact is given under its name if it is filled. -/
theorem lookup_filledParams {facts : List (String × Option String)}
    (distinct : (facts.map (·.1)).Nodup) (key : String) :
    (filledParams facts).lookup key = (facts.lookup key).bind filled? := by
  induction facts with
  | nil => rfl
  | cons fact rest ih =>
    obtain ⟨name, value⟩ := fact
    obtain ⟨new, distinct⟩ := List.nodup_cons.mp distinct
    rw [filledParams_cons, List.lookup_append, ih distinct, List.lookup_cons]
    by_cases same : key = name
    · subst same
      have later : rest.lookup key = none := by
        refine List.lookup_eq_none_iff.mpr fun pair mem => bne_iff_ne.mpr fun eq => new ?_
        exact List.mem_map.mpr ⟨pair, mem, eq.symm⟩
      cases text : filled? value <;> simp [later, text]
    · have other : (key == name) = false := beq_eq_false_iff_ne.mpr same
      cases filled? value <;> simp [other]

/-! ### Texts -/

/-- A control has a label if it has an icon or is of a kind with a name. -/
theorem iconText_ok (named : ∀ locale,
    (controlLabel? ((params.lookup "term").getD "Button") locale).isSome) :
    ∃ text, iconText params = .ok text := by
  obtain ⟨label, found⟩ :=
    Option.isSome_iff_exists.mp (named ((params.lookup "locale").getD "en"))
  unfold iconText
  dsimp only
  rw [found]
  cases given? "icon" params <;> exact ⟨_, rfl⟩

/-- The text of a value is found if its resolver finds one. -/
theorem resolve_ok {name : String} {r : Resolver} (known : Resolver.ofName? name = some r)
    (found : ∃ text, r.run params = .ok text) :
    ∃ text, resolve (.deferred name params) = .ok text := by
  obtain ⟨text, found⟩ := found
  unfold resolve resolveValue
  simp only [known, found]
  exact ⟨_, rfl⟩

end JsxAudit.Audit.Deferred

namespace JsxAudit.Rule

open Source Audit Label

variable {f : SourceFile} {v : Violation} {settings : RuleSettings} {fix : Fix}

/-- The fix has a text that is found without a service, if only the placeholder. -/
def HasOfflineText (fix : Fix) : Prop :=
  ∃ text, Deferred.resolve fix.value = .ok text

/-- What the label of a control is made from. -/
def labelParams (kind : ControlKind) (settings : RuleSettings) (e : Element) : Deferred.Params :=
  Deferred.filledParams [("icon", settings.icons.iconName? e), ("term", some kind.term),
    ("locale", some settings.locale), ("variable", LoopVariable.find? e false)]

theorem value_labelFix (kind : ControlKind) (e : Element) :
    (labelFix kind settings e).value = .deferred "icon-label" (labelParams kind settings e) := rfl

theorem hasOfflineText_labelFix {kind : ControlKind} {e : Element}
    (term : kind.term = "Button" ∨ kind.term = "Link") :
    HasOfflineText (labelFix kind settings e) := by
  rw [HasOfflineText, value_labelFix]
  refine Deferred.resolve_ok (r := .iconLabel) rfl (Deferred.iconText_ok fun locale => ?_)
  have given : (labelParams kind settings e).lookup "term" = Deferred.filled? (some kind.term) :=
    Deferred.lookup_filledParams (by simp) "term"
  rw [given]
  rcases term with eq | eq <;> rw [eq] <;> exact isSome_controlLabel? locale (by decide)

/-- The fixes of buttons and links that show nothing, and those that name an item. -/
theorem hasOfflineText_of_scanControls {kind : ControlKind}
    (term : kind.term = "Button" ∨ kind.term = "Link")
    (h : v ∈ scanControls kind settings f) (given : v.fix = some fix) : HasOfflineText fix := by
  obtain ⟨e, -, -, ⟨-, _, _, rfl⟩ | ⟨-, rfl⟩⟩ := scanControls_cases h
  · cases given
    exact ⟨_, rfl⟩
  · cases given
    exact hasOfflineText_labelFix term

/-- The text for an image is the placeholder. -/
theorem hasOfflineText_of_imgAlt (h : v ∈ imgAlt.scan settings f) (given : v.fix = some fix) :
    HasOfflineText fix := by
  have placeholder (type : FixType) (e : Element) : HasOfflineText (altFix type e) :=
    Deferred.resolve_ok (r := .imgAlt) rfl ⟨_, rfl⟩
  obtain ⟨e, -, -, message, _, rfl, rfl | ⟨-, rfl⟩ | ⟨-, rfl⟩⟩ := imgAlt_cases h
  · cases given
  · cases given
    exact placeholder _ e
  · cases given
    exact placeholder _ e

theorem hasOfflineText_of_inputLabel (h : v ∈ inputLabel.scan settings f)
    (given : v.fix = some fix) : HasOfflineText fix := by
  obtain ⟨e, -, rfl⟩ := List.mem_map.mp h
  cases given
  exact Deferred.resolve_ok (r := .inputLabel) rfl ⟨_, rfl⟩

theorem hasOfflineText_of_metadataTitle (h : v ∈ metadataTitle.scan settings f)
    (given : v.fix = some fix) : HasOfflineText fix := by
  obtain ⟨-, message, rfl⟩ := metadataTitle_cases h
  cases given
  exact Deferred.resolve_ok (r := .pageTitle) rfl ⟨_, rfl⟩

/-- Every fix of a rule whose texts services may write has a text without one. -/
theorem hasOfflineText_of_mem_scan {r : Rule} (known : r ∈ Rule.all) (ai : r.type = .ai)
    (h : v ∈ r.scan settings f) (given : v.fix = some fix) : HasOfflineText fix := by
  simp only [Rule.all, List.mem_cons, List.not_mem_nil, or_false] at known
  rcases known with rfl | rfl | rfl | rfl | rfl | rfl | rfl | rfl | rfl | rfl | rfl | rfl | rfl |
    rfl | rfl
  · exact hasOfflineText_of_imgAlt h given
  · exact hasOfflineText_of_scanControls (.inl rfl) h given
  · exact hasOfflineText_of_scanControls (.inr rfl) h given
  · exact hasOfflineText_of_inputLabel h given
  · exact hasOfflineText_of_metadataTitle h given
  all_goals cases ai

end JsxAudit.Rule
