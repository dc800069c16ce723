import JsxAudit.Proofs.Repair.Kept

/-!
The course of a run of fixes.

`carriedOut` lists the fixes that a run carries out, each with the file that it finds: the file as
the fixes before it have left it. What is true of the end of a run and goes back over a fix that is
carried out is true of the whole course: `carriedOut_induction`.

What becomes of a file depends on its violations only through those with a fix, and through the
order of those that share a place: `apply_congr`. So the order in which violations of different
places are given makes no difference: `apply_perm`.
-/

namespace JsxAudit.Repair

open Source Audit

variable {parser : TreeParser} {f : SourceFile} {violations : List Violation} {p q : Progress}

/-- A violation whose fix is carried out, and the file that the fix finds. -/
structure Step where
  file : SourceFile
  violation : Violation

/-- The splices of the fix, the last one first. -/
def Step.splices (step : Step) : List Splice :=
  splicesFor step.file step.violation

/-- The fixes of some violations that are carried out on a file, one after the other. -/
def carriedOut (parser : TreeParser) : SourceFile → List Violation → List Step
  | _, [] => []
  | f, v :: rest =>
    match fixOne? parser f v with
    | .ok (some g) => ⟨f, v⟩ :: carriedOut parser g rest
    | _ => carriedOut parser f rest

theorem mem_of_mem_carriedOut {step : Step} (h : step ∈ carriedOut parser f violations) :
    step.violation ∈ violations := by
  induction violations generalizing f with
  | nil => cases h
  | cons v rest ih =>
    unfold carriedOut at h
    split at h
    · rcases List.mem_cons.mp h with rfl | later
      · exact List.mem_cons_self
      · exact List.mem_cons_of_mem _ (ih later)
    · exact List.mem_cons_of_mem _ (ih h)

theorem splicesFor_singleton {v : Violation} {fix : Fix} {value : String} {s : Splice}
    (given : v.fix = some fix) (known : Deferred.resolve fix.value = .ok (some value))
    (edit : editFor v.rule fix.type f v value = [s]) : splicesFor f v = [s] := by
  simp [splicesFor, given, known, edit, Splice.descending]

/-- The splices of a run are those of the fixes that it carries out. -/
theorem splicesOf_eq (parser : TreeParser) (f : SourceFile) (violations : List Violation) :
    splicesOf parser f violations = (carriedOut parser f violations).flatMap Step.splices := by
  induction violations generalizing f with
  | nil => rfl
  | cons v rest ih =>
    unfold splicesOf carriedOut
    rcases fixOne? parser f v with e | none | g
    · exact ih f
    · exact ih f
    · exact congrArg (splicesFor f v ++ ·) (ih g)

/-- A fix of one splice leads to what the parser makes of the text with the splice. -/
theorem fixOne?_singleton (v : Violation) (fix : Fix) (value : String) {text : String} {s : Splice}
    {g : SourceFile} (given : v.fix = some fix)
    (known : Deferred.resolve fix.value = .ok (some value))
    (edit : editFor v.rule fix.type f v value = [s])
    (spliced : Text.decode? (Splice.replaceIn f.bytes s) = some text)
    (parsed : SourceFile.parseWith parser f.path text = some g) :
    fixOne? parser f v = .ok (some g) := by
  rw [fixOne?_eq fix value text [s] given known edit (List.cons_ne_nil _ _)
    ((Splice.spliced?_singleton _ _).trans spliced), parsed]

theorem carriedOut_singleton {v : Violation} {g : SourceFile}
    (fixed : fixOne? parser f v = .ok (some g)) :
    [v].foldlM (advance parser) ⟨f, []⟩ = .ok ⟨g, [v]⟩ ∧ carriedOut parser f [v] = [⟨f, v⟩] := by
  constructor
  · simp [advance, fixed, Except.map]
  · simp only [carriedOut, fixed]

/-- Two fixes that are carried out, one after the other. -/
theorem apply_pair {v w : Violation} {g h : SourceFile}
    (order : processingOrder violations = [v, w]) (first : fixOne? parser f v = .ok (some g))
    (second : fixOne? parser g w = .ok (some h)) :
    apply parser f violations = .ok (h.text, [v, w]) := by
  rw [apply, applyAll, order]
  simp [advance, first, second, Except.map, bind, Except.bind, pure, Except.pure]

/-- A skipped fix changes nothing, so that only the fixes that are carried out need a case. -/
theorem carriedOut_induction {motive : Progress → List Step → Prop}
    (run : violations.foldlM (advance parser) p = .ok q) (ended : motive q [])
    (fix : ∀ p v g steps, fixOne? parser p.file v = .ok (some g) →
      motive ⟨g, p.applied ++ [v]⟩ steps → motive p (⟨p.file, v⟩ :: steps)) :
    motive p (carriedOut parser p.file violations) := by
  induction violations generalizing p with
  | nil =>
    cases run
    exact ended
  | cons v rest ih =>
    rw [List.foldlM_cons] at run
    unfold carriedOut
    cases first : advance parser p v with
    | error e =>
      rw [first] at run
      cases run
    | ok mid =>
      rw [first] at run
      rcases advance_cases first with ⟨skipped, rfl⟩ | ⟨file, fixed, rfl⟩
      · rw [skipped]
        exact ih run
      · rw [fixed]
        exact fix p v file _ fixed (ih run)

/-- A run lists the violations whose fixes it carries out. -/
theorem applied_of_foldlM (run : violations.foldlM (advance parser) p = .ok q) :
    q.applied = p.applied ++ (carriedOut parser p.file violations).map Step.violation := by
  refine carriedOut_induction
    (motive := fun p steps => q.applied = p.applied ++ steps.map Step.violation) run ?_
    fun p v g steps _ later => ?_
  · rw [List.map_nil, List.append_nil]
  · rw [later, List.append_assoc]
    rfl

/-! ### The order in which violations are given -/

variable {violations' : List Violation}

theorem keyLe_antisymm {a b : Nat × Nat × Nat} (ab : keyLe a b) (ba : keyLe b a) : a = b := by
  simp only [keyLe, Bool.or_eq_true, Bool.and_eq_true, decide_eq_true_eq] at ab ba
  refine Prod.ext ?_ (Prod.ext ?_ ?_) <;> omega

/-- The violations with a fix at one place, as they are given. -/
def fixableAt (violations : List Violation) (place : Nat × Nat × Nat) : List Violation :=
  (violations.filter (·.fix.isSome)).filter (orderKey · = place)

/-- The order of processing is determined by what is given for each place. -/
theorem processingOrder_congr
    (same : ∀ place, fixableAt violations place = fixableAt violations' place) :
    processingOrder violations = processingOrder violations' := by
  have order := isProcessingOrder_processingOrder violations
  have order' := isProcessingOrder_processingOrder violations'
  refine Data.eq_of_filter_eq (fun a b le ge => keyLe_antisymm ge le) order.descending
    order'.descending fun place => ?_
  rw [order.stable, order'.stable]
  exact same place

theorem apply_congr (same : ∀ place, fixableAt violations place = fixableAt violations' place) :
    apply parser f violations = apply parser f violations' := by
  rw [apply, apply, applyAll, applyAll, processingOrder_congr same]

/-- No two different violations with a fix share anchor, line and column, where no anchor counts as
the beginning of the file. -/
def PlacesApart (violations : List Violation) : Prop :=
  ∀ v ∈ violations, ∀ w ∈ violations, v.fix.isSome → w.fix.isSome → orderKey v = orderKey w → v = w

instance (violations : List Violation) : Decidable (PlacesApart violations) :=
  inferInstanceAs (Decidable (∀ v ∈ violations, ∀ w ∈ violations, _ → _ → _ → _))

theorem mem_fixableAt {v : Violation} {place : Nat × Nat × Nat} :
    v ∈ fixableAt violations place ↔ v ∈ violations ∧ v.fix.isSome ∧ orderKey v = place := by
  simp only [fixableAt, List.mem_filter, decide_eq_true_eq, and_assoc]

/-- Violations of different places may be given in any order: the text and the list of the applied
violations are the same, and so is the failure if there is one. -/
theorem apply_perm (perm : violations.Perm violations') (apart : PlacesApart violations) :
    apply parser f violations = apply parser f violations' := by
  refine apply_congr fun place => ?_
  have shuffled : (fixableAt violations place).Perm (fixableAt violations' place) :=
    (perm.filter _).filter _
  -- At one place stands one violation, however often, so that there is only one order.
  refine List.Perm.eq_of_pairwise (fun v w mem mem' _ _ => ?_) (List.pairwise_of_forall fun _ _ =>
    trivial) (List.pairwise_of_forall fun _ _ => trivial) shuffled
  obtain ⟨given, fixed, here⟩ := mem_fixableAt.mp mem
  obtain ⟨given', fixed', here'⟩ := mem_fixableAt.mp mem'
  exact apart v given w (perm.mem_iff.mpr given') fixed fixed' (here.trans here'.symm)

/-- A fix of an element at an anchor, one of the element around it without an anchor, and a remark
at the place of the first, given in two orders. -/
theorem apply_perm_nested :
    let inner : Violation :=
      { rule := "id", filePath := "a.tsx", line := 1, column := 4, element := "<a/>", message := ""
        fix := some ⟨.insertAttr, .literal "x", some "id"⟩, anchor := some 3, tag := some "a" }
    let outer := { inner with column := 1, element := "<p>", anchor := none, tag := some "p" }
    let remark := { inner with rule := "remark", fix := none }
    let outcome := Except.ok ("<p id=\"x\"><a id=\"x\"/></p>", [inner, outer])
    ∃ f ∈ SourceFile.parse "a.tsx" "<p><a/></p>", PlacesApart [inner, remark, outer] ∧
      apply Syntax.parse f [inner, remark, outer] = outcome ∧
      apply Syntax.parse f [outer, remark, inner] = outcome := by
  intro inner outer remark outcome
  have computed : ∃ f ∈ SourceFile.parse "a.tsx" "<p><a/></p>",
      ∃ g ∈ SourceFile.parse f.path "<p><a id=\"x\"/></p>",
      ∃ h ∈ SourceFile.parse g.path "<p id=\"x\"><a id=\"x\"/></p>",
      editFor "id" .insertAttr f inner "x" = [⟨5, 5, " id=\"x\""⟩] ∧
      Text.decode? (Splice.replaceIn f.bytes ⟨5, 5, " id=\"x\""⟩) = some "<p><a id=\"x\"/></p>" ∧
      editFor "id" .insertAttr g outer "x" = [⟨2, 2, " id=\"x\""⟩] ∧
      Text.decode? (Splice.replaceIn g.bytes ⟨2, 2, " id=\"x\""⟩) =
        some "<p id=\"x\"><a id=\"x\"/></p>" := by
    decide +kernel
  obtain ⟨f, read, g, parsed, h, parsed', edit, spliced, edit', spliced'⟩ := computed
  have apart : PlacesApart [inner, remark, outer] := by decide
  have order : processingOrder [inner, remark, outer] = [inner, outer] :=
    List.mergeSort_of_pairwise (by decide)
  have first := fixOne?_singleton inner ⟨.insertAttr, .literal "x", some "id"⟩ "x" rfl rfl edit
    spliced parsed
  have second := fixOne?_singleton outer ⟨.insertAttr, .literal "x", some "id"⟩ "x" rfl rfl edit'
    spliced' parsed'
  have ended : apply Syntax.parse f [inner, remark, outer] = outcome := by
    rw [apply_pair order first second, (parseWith_eq_some parsed').2.2]
  have shuffled : [inner, remark, outer].Perm [outer, remark, inner] := by decide
  exact ⟨f, read, apart, ended, (apply_perm shuffled apart).symm.trans ended⟩

end JsxAudit.Repair
