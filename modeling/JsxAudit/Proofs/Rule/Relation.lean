import JsxAudit.Proofs.Data.Related
import JsxAudit.Proofs.Rule.Report
import JsxAudit.Proofs.Source.Program
import JsxAudit.Proofs.Text.Blank
import Mathlib.Data.List.Nodup

/-!
Relations of links to new windows.

Adding what a relation lacks keeps its words and puts the missing ones behind them
(`words_mergeRelation`). The result lacks nothing, so nothing is added to it a second time
(`mergeRelation_mergeRelation`).

The check asks the same question of an element as the fix for it: something is left out exactly if
there is a fix (`relationFix?_eq_ite`). So a relation with the missing words added is never reported
again.
-/

namespace JsxAudit.Rule

open Source Audit

/-! ### Words of a relation -/

/-- What a relation leaves out, in the order in which it is added. -/
def missingRelations (current : String) : List String :=
  requiredRelations.filter fun token => !(Text.words current).contains token

/-- Adding one after the other adds what is not there at the start. -/
theorem foldl_missing (required tokens : List String) (distinct : required.Nodup) :
    required.foldl (fun tokens token => if tokens.contains token then tokens else tokens ++ [token])
      tokens = tokens ++ required.filter fun token => !tokens.contains token := by
  induction required generalizing tokens with
  | nil => rw [List.foldl_nil, List.filter_nil, List.append_nil]
  | cons token rest ih =>
    obtain ⟨fresh, distinct⟩ := List.nodup_cons.mp distinct
    rw [List.foldl_cons, ih _ distinct]
    by_cases there : tokens.contains token = true
    · rw [if_pos there, List.filter_cons_of_neg (by simpa using there)]
    · -- What was just added is not added again, as it stands nowhere behind.
      have same : (rest.filter fun t => !(tokens ++ [token]).contains t) =
          rest.filter fun t => !tokens.contains t := by
        refine List.filter_congr fun t mem => ?_
        have ne : t ≠ token := fun eq => fresh (eq ▸ mem)
        simp [ne]
      rw [if_neg there, same, List.filter_cons_of_pos (by simpa using there), List.append_assoc,
        List.singleton_append]

theorem mergeRelation_eq (current : String) :
    mergeRelation current = " ".intercalate (Text.words current ++ missingRelations current) :=
  congrArg _ (foldl_missing requiredRelations _ (by decide))

/-- A merged relation has the words of the relation as they are, and then what is missing. -/
theorem words_mergeRelation (current : String) :
    Text.words (mergeRelation current) = Text.words current ++ missingRelations current := by
  have required : ∀ w ∈ requiredRelations, w ≠ "" ∧ ∀ c ∈ w.toList, Text.isBlank c = false := by
    decide
  rw [mergeRelation_eq, Text.words_intercalate]
  intro w mem
  rcases List.mem_append.mp mem with there | missing
  · obtain ⟨some, visible⟩ := Text.mem_words there
    exact ⟨some, fun c inside => (visible c inside).2⟩
  · exact required w (List.mem_filter.mp missing).1

theorem missingRelations_mergeRelation (current : String) :
    missingRelations (mergeRelation current) = [] := by
  refine List.filter_eq_nil_iff.mpr fun token mem => ?_
  rw [words_mergeRelation]
  by_cases there : token ∈ Text.words current
  · simp [there]
  · simp [missingRelations, mem, there]

theorem mergeRelation_mergeRelation (current : String) :
    mergeRelation (mergeRelation current) = mergeRelation current := by
  calc mergeRelation (mergeRelation current)
      = " ".intercalate (Text.words (mergeRelation current) ++ []) := by
        rw [mergeRelation_eq (mergeRelation current), missingRelations_mergeRelation]
    _ = " ".intercalate (Text.words current ++ missingRelations current) := by
        rw [List.append_nil, words_mergeRelation]
    _ = mergeRelation current := (mergeRelation_eq current).symm

/-! ### Links that are reported -/

section

variable {e : Element} {f : SourceFile} {v : Violation}

/-- The elements that can link to a new window, in document order. -/
def linkElements (f : SourceFile) : List Element :=
  f.elementsTagged (tagsWith "a" (f.localDefault? "next/link" "Link"))

/-- The element has no relation, or one that is written out and leaves something out. -/
def lacksRelation (e : Element) : Bool :=
  !e.hasAttribute "rel" || (literal? e "rel").any fun current => missingRelations current ≠ []

/-- A link to a new window that leaves something of its relation out. -/
def isExposed (e : Element) : Bool :=
  literal? e "target" = some "_blank" && lacksRelation e

/-- The fix that gives a link the relation it has with what is missing. -/
def relationFix (e : Element) : Fix where
  type := if e.hasAttribute "rel" then .replaceAttr else .insertAttr
  value := .literal (mergeRelation ((literal? e "rel").getD ""))
  attr := some "rel"

/-- A report on a link to a new window. -/
structure ReportsOpener (e : Element) (v : Violation) : Prop where
  rule : v.rule = "link-noopener"
  path : v.filePath = e.file.path
  anchor : v.anchor = some e.anchor
  position : (v.line, v.column) = e.position
  message : v.message = "<" ++ e.tag ++
    " target=\"_blank\"> is missing rel=\"noopener noreferrer\". " ++ "This is a security risk."
  fix : v.fix = some (relationFix e)

/-- There is a fix exactly if something is left out. -/
theorem relationFix?_eq_ite (e : Element) :
    relationFix? e = if lacksRelation e then some (relationFix e) else none := by
  unfold relationFix? lacksRelation relationFix literal? Element.hasAttribute
  cases e.attribute? "rel" with
  | none =>
    have alone : mergeRelation "" = "noopener noreferrer" := by decide
    simp [alone]
  | some attr =>
    cases written : attr.stringValue? with
    | none => simp [written]
    | some current =>
      have complete : (requiredRelations.all fun token => (Text.words current).contains token) ↔
          missingRelations current = [] := by
        rw [missingRelations, List.filter_eq_nil_iff, List.all_eq_true]
        simp
      simp only [Option.bind_eq_bind, Option.bind_some, written, complete]
      by_cases whole : missingRelations current = [] <;> simp [whole]

/-- A relation that is the result of adding what is missing leaves nothing out. -/
theorem isExposed_merged {current : String} (h : literal? e "rel" = some (mergeRelation current)) :
    isExposed e = false := by
  have given : e.hasAttribute "rel" = true := by
    rw [literal?, Option.bind_eq_some_iff] at h
    obtain ⟨attr, there, -⟩ := h
    rw [Element.hasAttribute, there]
    rfl
  simp [isExposed, lacksRelation, given, h, missingRelations_mergeRelation]

/-- One report for each link that leaves something out, in order. -/
theorem linkNoopener_reported (settings : RuleSettings) (f : SourceFile) :
    List.Forall₂ ReportsOpener ((linkElements f).filter isExposed)
      (linkNoopener.scan settings f) := by
  rw [← List.filterMap_eq_filter]
  refine rel_filterMap (List.forall₂_same.mpr fun e _ => rfl) ?_
  rintro e _ rfl
  rw [relationFix?_eq_ite]
  by_cases opens : literal? e "target" = some "_blank"
  · cases lacks : lacksRelation e with
    | true =>
      have exposed : isExposed e = true := by simp [isExposed, opens, lacks]
      rw [Option.guard, if_pos exposed, if_pos opens, if_pos rfl]
      exact .some ⟨rfl, rfl, rfl, rfl, rfl, rfl⟩
    | false =>
      have covered : ¬ isExposed e = true := by simp [isExposed, lacks]
      rw [Option.guard, if_neg covered, if_pos opens, if_neg Bool.false_ne_true]
      exact .none
  · have covered : ¬ isExposed e = true := by simp [isExposed, opens]
    rw [Option.guard, if_neg covered, if_neg opens]
    exact .none

/-- Nothing is reported where the relation of an element is the result of adding what is missing. No
two elements of a program start at the same offset, so the offset of a report tells its element. -/
theorem not_reported_of_merged {settings : RuleSettings} (program : f.IsProgram)
    (reported : v ∈ linkNoopener.scan settings f) (mem : e ∈ f.elements)
    (here : v.anchor = some e.anchor) (current : String) :
    literal? e "rel" ≠ some (mergeRelation current) := by
  intro merged
  obtain ⟨other, found, report⟩ := exists_rel_of_mem (linkNoopener_reported settings f) reported
  obtain ⟨listed, exposed⟩ := List.mem_filter.mp found
  have start : other.anchor = e.anchor := Option.some.inj (report.anchor.symm.trans here)
  have same : other = e :=
    List.inj_on_of_nodup_map program.apart (mem_elementsTagged.mp listed).1 mem start
  rw [same, isExposed_merged merged] at exposed
  cases exposed

/-- Adding what a relation lacks keeps its words in their order and puts behind them what was
missing, and does nothing to a relation that was made this way. The check reports exactly the links
to a new window whose relation is missing or leaves something out, one report for each, in document
order, with the relation that has what was missing as the fix. A relation made this way leaves
nothing out, so no element that has one is reported. -/
theorem linkNoopener_mergeRelation (settings : RuleSettings) (f : SourceFile) :
    (∀ current, Text.words (mergeRelation current) =
      Text.words current ++ requiredRelations.filter fun token =>
        !(Text.words current).contains token) ∧
    (∀ current, mergeRelation (mergeRelation current) = mergeRelation current) ∧
    List.Forall₂ ReportsOpener ((linkElements f).filter isExposed)
      (linkNoopener.scan settings f) ∧
    (∀ (e : Element) (current : String), literal? e "rel" = some (mergeRelation current) →
      isExposed e = false) ∧
    (f.IsProgram → ∀ v ∈ linkNoopener.scan settings f, ∀ e ∈ f.elements,
      v.anchor = some e.anchor → ∀ current, literal? e "rel" ≠ some (mergeRelation current)) :=
  ⟨words_mergeRelation, mergeRelation_mergeRelation, linkNoopener_reported settings f,
    fun _ _ => isExposed_merged, fun program _ reported _ => not_reported_of_merged program reported⟩

example : mergeRelation "nofollow\tnoreferrer" = "nofollow noreferrer noopener" := by decide

end

end JsxAudit.Rule
