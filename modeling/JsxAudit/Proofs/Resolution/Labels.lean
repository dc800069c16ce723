import JsxAudit.Proofs.Repair.Place
import JsxAudit.Proofs.Resolution.Asking
import JsxAudit.Proofs.Resolution.Hits
import JsxAudit.Proofs.Rule.Wording
import JsxAudit.Repair.Apply

/-!
The label of a control, whichever way it is found.

A label comes from the cache, from the table of icons, from a service, or for want of an answer from
what the rule has seen: `BaseLabel` lists these ways. A loop variable is put behind the label after
that, once, and the fix that comes out is written as it is (`label_of_every_way`). Where the table
has a label for the icon, a run with services and a run without them write the same text.
-/

namespace JsxAudit.Label

/-- A locale that is not given stands for English. -/
theorem curatedLabel?_unset (icon : String) : curatedLabel? icon "" = curatedLabel? icon "en" := by
  have unset : localizedActionLabels.lookup (baseLocale "") = none := by decide +kernel
  have english : localizedActionLabels.lookup (baseLocale "en") = none := by decide +kernel
  rw [curatedLabel?, curatedLabel?, unset, english]

/-- What begins with a brace is a label with a variable, and neither empty nor the placeholder. -/
theorem LoopVariable.wrap_ne (label variable' : String) :
    wrap label variable' ≠ "" ∧ wrap label variable' ≠ Audit.Deferred.placeholder := by
  have opened : (wrap label variable').toList.head? = some '{' := by
    rw [wrap, String.toList_ofList, wrapChars]
    rfl
  constructor <;> intro eq <;> rw [eq] at opened
  · cases opened
  · exact absurd opened (by decide)

end JsxAudit.Label

namespace JsxAudit.Resolution

open Audit Cache Data Deferred Generation Label Rule Source

variable {σ : Type} {sv : Services σ} {files : List (String × SourceFile)} {s : Session σ}
  {v : Violation} {fix : Fix} {params : Params} {f : SourceFile} {base label variable' : String}

/-! ### Labels without services -/

/-- The label that is found without a service, before a variable is put behind it: that of the icon,
or the name of the control. -/
def offlineBase (params : Params) : Except ResolveError String :=
  let locale := (params.lookup "locale").getD "en"
  match given? "icon" params with
  | some icon => .ok (iconLabel icon locale)
  | none =>
    let term := (params.lookup "term").getD "Button"
    match controlLabel? term locale with
    | some label => .ok label
    | none => .error (.unknownTerm term)

theorem finished_of_variable (varying : given? "variable" params = some variable') :
    finished .label params label = LoopVariable.wrap label variable' := by
  unfold finished
  rw [varying]

theorem finished_ne_of_variable (varying : given? "variable" params = some variable')
    (label : String) :
    finished .label params label ≠ "" ∧ finished .label params label ≠ placeholder := by
  rw [finished_of_variable varying]
  exact LoopVariable.wrap_ne label variable'

/-- A label that is found without a service gets its variable as one that a service writes. -/
theorem iconText_eq (params : Params) :
    iconText params = (offlineBase params).map (finished .label params) := by
  unfold iconText offlineBase finished
  dsimp only
  cases given? "icon" params with
  | some icon => cases given? "variable" params <;> rfl
  | none =>
    cases controlLabel? ((params.lookup "term").getD "Button") ((params.lookup "locale").getD "en")
    · rfl
    · cases given? "variable" params <;> rfl

theorem offlineBase_ok (named : ∀ locale,
    (controlLabel? ((params.lookup "term").getD "Button") locale).isSome) :
    ∃ base, offlineBase params = .ok base := by
  unfold offlineBase
  dsimp only
  obtain ⟨label, found⟩ :=
    Option.isSome_iff_exists.mp (named ((params.lookup "locale").getD "en"))
  rw [found]
  cases given? "icon" params <;> exact ⟨_, rfl⟩

/-! ### What the rules report -/

theorem filled?_of_ne {text : String} (filled : text ≠ "") : filled? (some text) = some text := by
  simp [filled?, Option.filter, filled]

/-- A report that a button or a link has no name, and what its label is made from. -/
structure Unnamed (settings : RuleSettings) (v : Violation) (fix : Fix) (params : Params) :
    Prop where
  given : v.fix = some fix
  value : fix.value = .deferred "icon-label" params
  type : fix.type = .insertAttr
  subject : subjectOf? v.rule = some .label
  icons : usesIconLabels v.rule = true
  general : v.rule ∉ ownEdits
  /-- The locale is that of the settings, or English if they have none. -/
  curated (icon : String) : curatedLabel? icon ((params.lookup "locale").getD "en") =
    curatedLabel? icon settings.locale
  based : ∃ base, offlineBase params = .ok base

theorem unnamed_of_mem_scan {rule : Rule} {settings : RuleSettings} {g : SourceFile}
    {resolver : String} (control : rule ∈ [buttonLabel, linkLabel])
    (reported : v ∈ rule.scan settings g) (given : v.fix = some fix)
    (deferred : fix.value = .deferred resolver params) : Unnamed settings v fix params := by
  have scanned : ∃ kind ∈ [buttons, links], v ∈ scanControls kind settings g := by
    simp only [List.mem_cons, List.not_mem_nil, or_false] at control
    rcases control with rfl | rfl
    · exact ⟨buttons, by simp, reported⟩
    · exact ⟨links, by simp, reported⟩
  obtain ⟨kind, known, found⟩ := scanned
  obtain ⟨e, -, -, ⟨-, message, text, rfl⟩ | ⟨-, rfl⟩⟩ := scanControls_cases found
  · cases given
    cases deferred
  · cases given
    rw [value_labelFix] at deferred
    cases deferred
    have rules : ∀ kind ∈ [buttons, links], subjectOf? kind.rule = some .label ∧
        usesIconLabels kind.rule = true ∧ kind.rule ∉ ownEdits ∧
        ((controlLabels.lookup "en").bind (·.lookup kind.term)).isSome ∧ kind.term ≠ "" := by
      decide +kernel
    obtain ⟨subject, icons, general, named, filled⟩ := rules kind known
    have term : (labelParams kind settings e).lookup "term" = some kind.term :=
      (lookup_filledParams (by simp) "term").trans (filled?_of_ne filled)
    have locale : (labelParams kind settings e).lookup "locale" =
        filled? (some settings.locale) := lookup_filledParams (by simp) "locale"
    refine ⟨rfl, value_labelFix kind e, rfl, subject, icons, general, fun icon => ?_,
      offlineBase_ok fun locale => ?_⟩
    · rw [locale]
      by_cases unset : settings.locale = ""
      · rw [unset]
        exact (curatedLabel?_unset icon).symm
      · rw [filled?_of_ne unset, Option.getD_some]
    · rw [term]
      exact isSome_controlLabel? locale named

theorem Unnamed.pending {settings : RuleSettings} (h : Unnamed settings v fix params) :
    pending? v = some (.label, fix, params) :=
  pending?_eq_some_iff.mpr ⟨h.subject, h.given, _, h.value⟩

/-! ### The ways to a label -/

/-- What is looked up for the label of a control. -/
def labelQueryFor (sv : Services σ) (v : Violation) (f : SourceFile) (params : Params) : Query :=
  labelQuery v (PageContext.of f) sv.locale (params.lookup "icon")

/-- The label that the table has for the icon of a control. -/
def curatedFor? (locale : String) (params : Params) : Option String :=
  (given? "icon" params).bind fun icon => curatedLabel? icon locale

/-- The ways to the label of a control, before a variable is put behind it. -/
inductive BaseLabel (sv : Services σ) (q : Query) (params : Params) (s : Session σ) :
    String → Prop
  /-- The cache has it. -/
  | cached {label : String} : cached? sv.locale q.key s = some label →
      BaseLabel sv q params s label
  /-- The table has it for the icon. -/
  | curated {label : String} : cached? sv.locale q.key s = none →
      curatedFor? sv.locale params = some label → BaseLabel sv q params s label
  /-- The service writes it. -/
  | written {a : TextAnswer} : cached? sv.locale q.key s = none →
      curatedFor? sv.locale params = none → (sv.write q.request s.state).1 = .ok a →
      a.text ≠ "" → BaseLabel sv q params s a.text
  /-- The service answers with nothing. -/
  | unanswered {a : TextAnswer} {base : String} : cached? sv.locale q.key s = none →
      curatedFor? sv.locale params = none → (sv.write q.request s.state).1 = .ok a →
      a.text = "" → offlineBase params = .ok base → BaseLabel sv q params s base
  /-- The service refuses. -/
  | refused {message base : String} : cached? sv.locale q.key s = none →
      curatedFor? sv.locale params = none →
      (sv.write q.request s.state).1 = .error (.refused message) →
      offlineBase params = .ok base → BaseLabel sv q params s base

theorem curatedFor?_ne_empty {locale : String} (h : curatedFor? locale params = some label) :
    label ≠ "" := by
  obtain ⟨icon, -, found⟩ := Option.bind_eq_some_iff.mp h
  exact (ne_empty_of_curatedLabel? found).2

theorem known_labelQueryFor (icons : usesIconLabels v.rule = true) (sv : Services σ)
    (f : SourceFile) (params : Params) :
    (labelQueryFor sv v f params).known = curatedFor? sv.locale params := by
  unfold labelQueryFor labelQuery
  dsimp only
  rw [if_pos icons]
  change (curatedFor? sv.locale params).filter _ = _
  cases found : curatedFor? sv.locale params with
  | none => rfl
  | some label => simp [Option.filter, curatedFor?_ne_empty found]

/-- A label is decided by the cache, the table and the service, of which the first that has one
answers. -/
theorem Unnamed.resolveOne_eq {settings : RuleSettings} (h : Unnamed settings v fix params)
    (found : files.lookup v.filePath = some f) (s : Session σ) :
    (resolveOne sv files v s).1 = decided .label v fix params f
      (match (cached? sv.locale (labelQueryFor sv v f params).key s).or
          (curatedFor? sv.locale params) with
      | some text => .ok { text }
      | none => (sv.write (labelQueryFor sv v f params).request s.state).1) := by
  have due : Due files v .label fix params f := ⟨h.pending, found⟩
  have asked : queryFor sv .label v f params s = (.ok (labelQueryFor sv v f params), s) := rfl
  have answered : (answer sv v.rule (labelQueryFor sv v f params) s).1 = _ := answer_fst v.rule
  rw [known_labelQueryFor h.icons sv f params] at answered
  refine Eq.trans ?_ (congrArg (decided .label v fix params f) answered)
  rw [due.resolveOne_eq, resolveFix, asked]
  dsimp only
  rcases answer sv v.rule (labelQueryFor sv v f params) s with ⟨(message | fault) | a, after⟩
  · dsimp only [decided]
    cases offlineFix .label v fix f <;> rfl
  · rfl
  · dsimp only [decided]
    split
    · cases offlineFix .label v fix f <;> rfl
    · rfl

/-! ### What comes out -/

namespace Unnamed

variable {settings : RuleSettings}

theorem resolve_eq (h : Unnamed settings v fix params) (based : offlineBase params = .ok base)
    (plain : finished .label params base ≠ placeholder) :
    resolve fix.value = .ok (some (finished .label params base)) := by
  have written : resolveValue fix.value = .ok (finished .label params base) := by
    rw [h.value, resolveValue_deferred (r := .iconLabel) rfl]
    change iconText params = _
    rw [iconText_eq, based]
    rfl
  exact resolve_eq_ok_iff.mpr ⟨_, written, (if_neg plain).symm⟩

/-- A label that is neither empty nor the placeholder stands in for an answer. -/
theorem decided_without (h : Unnamed settings v fix params) (based : offlineBase params = .ok base)
    (plain : finished .label params base ≠ placeholder)
    (filled : finished .label params base ≠ "") {answered : Except Generation.Failure TextAnswer}
    (none : (∃ message, answered = .error (.refused message)) ∨
      ∃ a, answered = .ok a ∧ a.text = "") :
    ∃ usage, decided .label v fix params f answered =
      .ok ({ v with fix := some (fix.withText (finished .label params base)) }, usage) := by
  have offline : offlineFix .label v fix f =
      .ok (some (fix.withText (finished .label params base))) := by
    unfold offlineFix offlineText
    simp [h.resolve_eq based plain, Option.filter, filled, Except.map]
  rcases none with ⟨message, rfl⟩ | ⟨a, rfl, empty⟩
  · exact ⟨{}, by rw [decided, offline]; rfl⟩
  · exact ⟨a.usage, by rw [decided, if_pos empty, offline]; rfl⟩

/-- A label with a variable comes out with the variable behind it, whichever way it is found. -/
theorem resolveOne_of_baseLabel (h : Unnamed settings v fix params)
    (varying : given? "variable" params = some variable') (found : files.lookup v.filePath = some f)
    (way : BaseLabel sv (labelQueryFor sv v f params) params s base) :
    ∃ usage, (resolveOne sv files v s).1 =
      .ok ({ v with fix := some (fix.withText (LoopVariable.wrap base variable')) }, usage) := by
  rw [h.resolveOne_eq found, ← finished_of_variable varying]
  obtain ⟨filled, plain⟩ := finished_ne_of_variable varying base
  cases way with
  | cached hit =>
    obtain ⟨-, -, -, -, given⟩ := cached?_eq_some_iff.mp hit
    exact ⟨{}, by rw [hit, Option.some_or, decided, if_neg given]⟩
  | curated miss ready =>
    exact ⟨{}, by rw [miss, Option.none_or, ready, decided, if_neg (curatedFor?_ne_empty ready)]⟩
  | @written a miss unknown wrote given =>
    exact ⟨a.usage, by rw [miss, Option.none_or, unknown, wrote, decided, if_neg given]⟩
  | @unanswered a _ miss unknown wrote empty based =>
    rw [miss, Option.none_or, unknown]
    exact h.decided_without based plain filled (.inr ⟨a, wrote, empty⟩)
  | @refused message _ miss unknown refused based =>
    rw [miss, Option.none_or, unknown]
    exact h.decided_without based plain filled (.inl ⟨message, refused⟩)

/-- There is a way to every label, unless a fault ends the run. -/
theorem exists_baseLabel (h : Unnamed settings v fix params)
    (found : files.lookup v.filePath = some f) (s : Session σ) :
    (∃ base, BaseLabel sv (labelQueryFor sv v f params) params s base) ∨
      ∃ fault, (resolveOne sv files v s).1 = .error fault := by
  obtain ⟨base, based⟩ := h.based
  cases hit : cached? sv.locale (labelQueryFor sv v f params).key s with
  | some label => exact .inl ⟨label, .cached hit⟩
  | none =>
    cases ready : curatedFor? sv.locale params with
    | some label => exact .inl ⟨label, .curated hit ready⟩
    | none =>
      rcases wrote : (sv.write (labelQueryFor sv v f params).request s.state).1 with
        (message | fault) | a
      · exact .inl ⟨base, .refused hit ready wrote based⟩
      · refine .inr ⟨fault, ?_⟩
        rw [h.resolveOne_eq found, hit, ready, Option.none_or, wrote]
        rfl
      · by_cases empty : a.text = ""
        · exact .inl ⟨base, .unanswered hit ready wrote empty based⟩
        · exact .inl ⟨a.text, .written hit ready wrote empty⟩

end Unnamed

/-! ### Icons with a label in the table -/

theorem actionTables_apart :
    ∀ table ∈ actionTables, ∀ pair ∈ table, pair.2 ≠ placeholder := by
  decide +kernel

/-- A label of the table is written, with a variable or without one. -/
theorem finished_ne_placeholder {locale : String} (ready : curatedFor? locale params = some label) :
    finished .label params label ≠ placeholder := by
  obtain ⟨icon, -, found⟩ := Option.bind_eq_some_iff.mp ready
  obtain ⟨table, mem, pair⟩ := mem_actionTables found
  cases varying : given? "variable" params with
  | none =>
    unfold finished
    rw [varying]
    exact actionTables_apart table mem _ pair
  | some variable' => exact (finished_ne_of_variable varying label).2

namespace Unnamed

variable {settings : RuleSettings}

theorem offlineBase_of_curated (h : Unnamed settings v fix params)
    (ready : curatedFor? settings.locale params = some label) :
    offlineBase params = .ok label := by
  obtain ⟨icon, named, found⟩ := Option.bind_eq_some_iff.mp ready
  unfold offlineBase
  simp only [named, iconLabel, h.curated icon, found, Option.getD_some]

theorem resolveOne_of_curated (h : Unnamed settings v fix params)
    (found : files.lookup v.filePath = some f)
    (miss : cached? sv.locale (labelQueryFor sv v f params).key s = none)
    (ready : curatedFor? sv.locale params = some label) :
    (resolveOne sv files v s).1 =
      .ok ({ v with fix := some (fix.withText (finished .label params label)) }, {}) := by
  rw [h.resolveOne_eq found, miss, ready, Option.none_or, decided,
    if_neg (curatedFor?_ne_empty ready)]

end Unnamed

/-- An attribute is inserted with the text of the fix, whether the text is there or is found when it
is needed. -/
theorem fixOne?_withText {parser : TreeParser} {h : SourceFile} {text : String}
    (given : v.fix = some fix) (general : v.rule ∉ ownEdits) (type : fix.type = .insertAttr)
    (resolved : resolve fix.value = .ok (some text)) :
    Repair.fixOne? parser h { v with fix := some (fix.withText text) } =
      Repair.fixOne? parser h v := by
  obtain ⟨found, -, answer⟩ := resolve_eq_ok_iff.mp resolved
  have plain : text ≠ placeholder := by
    rintro rfl
    split at answer
    · cases answer
    · exact absurd (Option.some.inj answer).symm ‹_›
  have again : resolve (fix.withText text).value = .ok (some text) :=
    resolve_eq_ok_iff.mpr ⟨text, rfl, (if_neg plain).symm⟩
  have edit (w : Violation) :
      Repair.editFor v.rule fix.type h w text = Repair.insertAttr h w text := by
    rw [type, Repair.editFor_insertAttr general]
  have same : Repair.insertAttr h { v with fix := some (fix.withText text) } text =
      Repair.insertAttr h v text := by
    unfold Repair.insertAttr
    rw [given]
    rfl
  unfold Repair.fixOne?
  rw [given]
  simp only [resolved, again]
  rw [edit v, ← same, ← edit]
  rfl

/-! ### Every way to a label -/

/-- Whichever way the label of a button or a link is found, what is written is the label with the
loop variable put behind it once: without services, and in every session of a run with services.
There always is a way, unless a fault ends the run. Where the table has a label for the icon, and
the cache has none, a run with services for the locale of the rules writes what is written without
them, with a variable or without one. -/
theorem label_of_every_way {rule : Rule} {settings : RuleSettings} {g : SourceFile}
    {resolver : String} (control : rule ∈ [buttonLabel, linkLabel])
    (reported : v ∈ rule.scan settings g) (given : v.fix = some fix)
    (deferred : fix.value = .deferred resolver params) :
    (∀ variable', given? "variable" params = some variable' →
      (∃ base, offlineBase params = .ok base ∧
        resolve fix.value = .ok (some (LoopVariable.wrap base variable'))) ∧
      ∀ {σ : Type} (sv : Services σ) (files : List (String × SourceFile)) (f : SourceFile)
        (s : Session σ), files.lookup v.filePath = some f →
        (∀ base, BaseLabel sv (labelQueryFor sv v f params) params s base →
          ∃ usage text, text = LoopVariable.wrap base variable' ∧
            (resolveOne sv files v s).1 =
              .ok ({ v with fix := some (fix.withText text) }, usage) ∧
            resolve (fix.withText text).value = .ok (some text)) ∧
        ((∃ base, BaseLabel sv (labelQueryFor sv v f params) params s base) ∨
          ∃ fault, (resolveOne sv files v s).1 = .error fault)) ∧
    ∀ label, curatedFor? settings.locale params = some label →
      ∀ {σ : Type} (sv : Services σ) (files : List (String × SourceFile)) (f : SourceFile)
        (s : Session σ), files.lookup v.filePath = some f → sv.locale = settings.locale →
        cached? sv.locale (labelQueryFor sv v f params).key s = none →
        ∃ text, text = finished .label params label ∧ resolve fix.value = .ok (some text) ∧
          (resolveOne sv files v s).1 = .ok ({ v with fix := some (fix.withText text) }, {}) ∧
          ∀ parser h, Repair.fixOne? parser h { v with fix := some (fix.withText text) } =
            Repair.fixOne? parser h v := by
  have unnamed := unnamed_of_mem_scan control reported given deferred
  constructor
  · intro variable' varying
    obtain ⟨base, based⟩ := unnamed.based
    refine ⟨⟨base, based, ?_⟩, fun sv files f s found => ⟨fun base way => ?_, ?_⟩⟩
    · rw [← finished_of_variable varying]
      exact unnamed.resolve_eq based (finished_ne_of_variable varying base).2
    · obtain ⟨usage, came⟩ := unnamed.resolveOne_of_baseLabel varying found way
      have plain := (LoopVariable.wrap_ne base variable').2
      exact ⟨usage, _, rfl, came, resolve_eq_ok_iff.mpr ⟨_, rfl, (if_neg plain).symm⟩⟩
    · exact unnamed.exists_baseLabel found s
  · intro label ready σ sv files f s found same miss
    have based := unnamed.offlineBase_of_curated ready
    have resolved := unnamed.resolve_eq based (finished_ne_placeholder ready)
    refine ⟨_, rfl, resolved, unnamed.resolveOne_of_curated found miss (same ▸ ready), ?_⟩
    intro parser h
    exact fixOne?_withText given unnamed.general unnamed.type resolved

/-- Two buttons of a list: the service refuses to name the one, and the table names the other. -/
theorem label_of_every_way_list :
    let start : Session Nat := { state := 0, disk := {}, cache := { folder := "/cache" } }
    ∃ f ∈ SourceFile.parse "/p/a.tsx" ("xs.map(x => <p key=\x7bx.name\x7d>" ++
        "<button><BasketIcon/></button><button><TrashIcon/></button></p>)"),
      (∃ v ∈ buttonLabel.scan {} f, ∃ fix params, v.fix = some fix ∧
        fix.value = .deferred "icon-label" params ∧ given? "variable" params = some "x.name" ∧
        BaseLabel refusingOnce (labelQueryFor refusingOnce v f params) params start "Basket" ∧
        resolve fix.value = .ok (some (LoopVariable.wrap "Basket" "x.name")) ∧
        ∃ usage, (resolveOne refusingOnce [(f.path, f)] v start).1 = .ok
          ({ v with fix := some (fix.withText (LoopVariable.wrap "Basket" "x.name")) }, usage)) ∧
      ∃ w ∈ buttonLabel.scan {} f, ∃ fix params, w.fix = some fix ∧
        fix.value = .deferred "icon-label" params ∧ given? "variable" params = some "x.name" ∧
        curatedFor? "en" params = some "Delete" ∧
        resolve fix.value = .ok (some (LoopVariable.wrap "Delete" "x.name")) ∧
        (resolveOne refusingOnce [(f.path, f)] w start).1 = .ok
          ({ w with fix := some (fix.withText (LoopVariable.wrap "Delete" "x.name")) }, {}) := by
  intro start
  let basket : Params :=
    [("icon", "BasketIcon"), ("term", "Button"), ("locale", "en"), ("variable", "x.name")]
  let trash : Params :=
    [("icon", "TrashIcon"), ("term", "Button"), ("locale", "en"), ("variable", "x.name")]
  have computed : ∃ f ∈ SourceFile.parse "/p/a.tsx" ("xs.map(x => <p key=\x7bx.name\x7d>" ++
        "<button><BasketIcon/></button><button><TrashIcon/></button></p>)"),
      (∃ v ∈ buttonLabel.scan {} f, v.filePath = f.path ∧
        v.fix.map (·.value) = some (.deferred "icon-label" basket)) ∧
      ∃ w ∈ buttonLabel.scan {} f, w.filePath = f.path ∧
        w.fix.map (·.value) = some (.deferred "icon-label" trash) := by
    decide +kernel
  have tables : curatedFor? "en" basket = none ∧ offlineBase basket = .ok "Basket" ∧
      curatedFor? "en" trash = some "Delete" := by
    decide +kernel
  obtain ⟨f, parsed, ⟨v, reported, path, deferred⟩, w, reported', path', deferred'⟩ := computed
  obtain ⟨unready, based, ready⟩ := tables
  obtain ⟨fix, given, value⟩ := Option.map_eq_some_iff.mp deferred
  obtain ⟨fix', given', value'⟩ := Option.map_eq_some_iff.mp deferred'
  have known (x : Violation) (eq : x.filePath = f.path) :
      [(f.path, f)].lookup x.filePath = some f := by
    rw [eq, List.lookup_cons_self]
  have control : buttonLabel ∈ [buttonLabel, linkLabel] := List.mem_cons_self
  have empty : start.cache.entries start.disk = [] :=
    List.isEmpty_iff.mp (by decide +kernel)
  have miss (key : String) : cached? "en" key start = none := by
    refine Option.eq_none_iff_forall_not_mem.mpr fun text hit => ?_
    obtain ⟨e, found, -⟩ := cached?_eq_some_iff.mp hit
    rw [empty] at found
    cases found
  have refuses (request : TextRequest) :
      (refusingOnce.write request start.state).1 = .error (.refused "busy") := rfl
  have way : BaseLabel refusingOnce (labelQueryFor refusingOnce v f basket) basket start
      "Basket" := .refused (miss _) unready (refuses _) based
  obtain ⟨varied, -⟩ := label_of_every_way control reported given value
  obtain ⟨⟨base, based', without⟩, each⟩ := varied "x.name" rfl
  obtain rfl : base = "Basket" := Except.ok.inj (based'.symm.trans based)
  obtain ⟨usage, _, rfl, came, -⟩ := (each refusingOnce _ f start (known v path)).1 _ way
  obtain ⟨-, agreed⟩ := label_of_every_way control reported' given' value'
  obtain ⟨_, rfl, without', came', -⟩ :=
    agreed "Delete" ready refusingOnce _ f start (known w path') rfl (miss _)
  exact ⟨f, parsed, ⟨v, reported, fix, basket, given, value, rfl, way, without, usage, came⟩,
    w, reported', fix', trash, given', value', rfl, ready, without', came'⟩

end JsxAudit.Resolution
