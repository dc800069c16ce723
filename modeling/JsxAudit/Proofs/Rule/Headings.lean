import JsxAudit.Proofs.Rule.Report
import JsxAudit.Proofs.Source.Program
import JsxAudit.Rule.Content

/-!
Headings that skip levels.

The check looks at two neighbouring headings at a time. `exists_skips` says at which places of a list
of headings it reports something, by induction on the list. What a document without a report has is
about all headings at once: levels that rise by one at most pass through every level on the way up
(`exists_level`).
-/

namespace JsxAudit.Rule

open Source Audit Syntax

variable {f : SourceFile} {hs : List Element}

/-! ### Headings of a file -/

/-- The headings of a file. -/
def headings (f : SourceFile) : List Element :=
  f.elementsTagged headingTags

/-- The headings are the nodes of the tree with a heading's tag, in document order: each node before
the nodes below it, and these before the nodes behind it. -/
theorem sites_headings (f : SourceFile) : (headings f).map (·.site) =
    (f.root.children.flatMap (Site.preorder [f.root])).filter fun s =>
      isElementKind s.node.kind && headingTags.contains (Element.mk f s).tag := by
  rw [headings, SourceFile.elementsTagged, SourceFile.elements, Element.ofSites, List.filter_map,
    List.map_map, List.filter_filter, Site.descendants_eq]
  refine (List.map_id _).trans (List.filter_congr fun s _ => ?_)
  exact Bool.and_comm _ _

/-- A heading's tag tells its level. -/
theorem tag_of_mem_headings {e : Element} (h : e ∈ headings f) :
    e.tag = "h" ++ toString (levelOf e) ∧ 1 ≤ levelOf e ∧ levelOf e ≤ 6 := by
  have tagged := (mem_elementsTagged.mp h).2
  have each : ∀ tag ∈ headingTags, tag = "h" ++ toString ((PageContext.headingLevel? tag).getD 0) ∧
      1 ≤ (PageContext.headingLevel? tag).getD 0 ∧ (PageContext.headingLevel? tag).getD 0 ≤ 6 := by
    decide
  exact each _ tagged

/-- Elements come in the order of their first bytes. -/
theorem ascending_headings (program : f.IsProgram) :
    (headings f).Pairwise fun a b => a.anchor < b.anchor := by
  have ordered : f.elements.Pairwise fun a b => a.anchor ≤ b.anchor := by
    rw [SourceFile.elements, Element.ofSites, List.pairwise_map]
    exact (Site.descendants_ascending (s := f.site) program.nested).filter _
  have apart : f.elements.Pairwise fun a b => a.anchor ≠ b.anchor :=
    List.pairwise_map.mp program.apart
  exact (ordered.imp₂ (fun _ _ le ne => Nat.lt_of_le_of_ne le ne) apart).filter _

/-! ### Reports -/

/-- The level rises by more than one from the heading at this place to the next. -/
def SkipsAt (hs : List Element) (i : ℕ) : Prop :=
  ∃ a b, hs[i]? = some a ∧ hs[i + 1]? = some b ∧ levelOf a + 1 < levelOf b

/-- A report on a heading that skips levels after the one before it. -/
structure ReportsSkip (a b : Element) (v : Violation) : Prop where
  rule : v.rule = "heading-order"
  path : v.filePath = b.file.path
  anchor : v.anchor = some b.anchor
  position : (v.line, v.column) = b.position
  message : v.message = "Heading level skipped: expected h" ++ toString (levelOf a + 1) ++
    " but found " ++ b.tag
  fix : v.fix = none

/-- The report is on the heading behind this place, which skips levels. -/
def ReportedAt (hs : List Element) (i : ℕ) (v : Violation) : Prop :=
  ∃ a b, hs[i]? = some a ∧ hs[i + 1]? = some b ∧ ReportsSkip a b v

theorem checkStep_eq_some {a b : Element} (h : levelOf a + 1 < levelOf b) :
    ∃ v, checkStep a b = some v ∧ ReportsSkip a b v := by
  rw [checkStep, if_pos h]
  exact ⟨_, rfl, ⟨rfl, rfl, rfl, rfl, rfl, rfl⟩⟩

theorem checkStep_eq_none {a b : Element} (h : ¬ levelOf a + 1 < levelOf b) :
    checkStep a b = none :=
  if_neg h

theorem skipsAt_cons_succ {a : Element} {i : ℕ} : SkipsAt (a :: hs) (i + 1) ↔ SkipsAt hs i :=
  Iff.rfl

theorem skipsAt_cons_zero {a b : Element} :
    SkipsAt (a :: b :: hs) 0 ↔ levelOf a + 1 < levelOf b := by
  constructor
  · rintro ⟨_, _, first, second, skips⟩
    cases first
    cases second
    exact skips
  · intro skips
    exact ⟨a, b, rfl, rfl, skips⟩

/-- One report for each place at which levels are skipped, in order. -/
theorem exists_skips (hs : List Element) : ∃ places : List ℕ, places.Pairwise (· < ·) ∧
    (∀ i, i ∈ places ↔ SkipsAt hs i) ∧
    List.Forall₂ (ReportedAt hs) places
      ((hs.zip (hs.drop 1)).filterMap fun (a, b) => checkStep a b) := by
  match hs with
  | [] => exact ⟨[], .nil, fun i => by simp [SkipsAt], .nil⟩
  | [_] => exact ⟨[], .nil, fun i => by simp [SkipsAt], .nil⟩
  | a :: b :: rest =>
    obtain ⟨places, ascending, exactly, reports⟩ := exists_skips (b :: rest)
    have later : (places.map (· + 1)).Pairwise (· < ·) :=
      List.pairwise_map.mpr (ascending.imp Nat.succ_lt_succ)
    have shifted : List.Forall₂ (ReportedAt (a :: b :: rest)) (places.map (· + 1)) _ :=
      List.forall₂_map_left_iff.mpr reports
    by_cases skips : levelOf a + 1 < levelOf b
    · obtain ⟨v, found, report⟩ := checkStep_eq_some skips
      refine ⟨0 :: places.map (· + 1), List.pairwise_cons.mpr ⟨?_, later⟩, ?_, ?_⟩
      · simp
      · rintro (_ | i)
        · simp [skipsAt_cons_zero, skips]
        · simp [skipsAt_cons_succ, exactly]
      · simp only [List.drop_one, List.tail_cons, List.zip_cons_cons, List.filterMap_cons, found]
        exact .cons ⟨a, b, rfl, rfl, report⟩ shifted
    · refine ⟨places.map (· + 1), later, ?_, ?_⟩
      · rintro (_ | i)
        · simp [skipsAt_cons_zero, skips]
        · simp [skipsAt_cons_succ, exactly]
      · simp only [List.drop_one, List.tail_cons, List.zip_cons_cons, List.filterMap_cons,
          checkStep_eq_none skips]
        exact shifted

/-- Levels that rise by one at most leave none out. -/
theorem exists_level (steps : ∀ i, ¬ SkipsAt hs i) {first last : Element} {j k : ℕ}
    (start : hs[0]? = some first) (here : hs[j]? = some last) (low : levelOf first ≤ k)
    (high : k ≤ levelOf last) : ∃ i ≤ j, ∃ e, hs[i]? = some e ∧ levelOf e = k := by
  induction j generalizing last with
  | zero =>
    obtain rfl : first = last := Option.some.inj (start.symm.trans here)
    exact ⟨0, Nat.le_refl _, first, start, Nat.le_antisymm low high⟩
  | succ j ih =>
    by_cases exact' : k = levelOf last
    · exact ⟨j + 1, Nat.le_refl _, last, here, exact'.symm⟩
    have inside : j < hs.length :=
      Nat.lt_of_succ_lt (List.getElem?_eq_some_iff.mp here).1
    have before : hs[j]? = some hs[j] := List.getElem?_eq_getElem inside
    have rise : levelOf last ≤ levelOf hs[j] + 1 :=
      Nat.not_lt.mp fun skips => steps j ⟨hs[j], last, before, here, skips⟩
    obtain ⟨i, le, found⟩ := ih before (by omega)
    exact ⟨i, Nat.le_succ_of_le le, found⟩

/-- Exactly where levels are skipped something is reported. The headings are taken in document
order, and for every place at which the level rises by more than one to the next heading there is one
report, on that heading, in the same order. If nothing is reported, then each level from that of the
first heading up to that of any other one has a heading at or before that one. -/
theorem headingOrder_skips (settings : RuleSettings) (f : SourceFile) :
    (headings f).map (·.site) = ((f.root.children.flatMap (Site.preorder [f.root])).filter fun s =>
      isElementKind s.node.kind && headingTags.contains (Element.mk f s).tag) ∧
    (f.IsProgram → (headings f).Pairwise fun a b => a.anchor < b.anchor) ∧
    (∀ e ∈ headings f, e.tag = "h" ++ toString (levelOf e) ∧ 1 ≤ levelOf e ∧ levelOf e ≤ 6) ∧
    (∃ places : List ℕ, places.Pairwise (· < ·) ∧
      (∀ i, i ∈ places ↔ SkipsAt (headings f) i) ∧
      List.Forall₂ (ReportedAt (headings f)) places (headingOrder.scan settings f)) ∧
    (headingOrder.scan settings f = [] → ∀ (first last : Element) (j k : ℕ),
      (headings f)[0]? = some first → (headings f)[j]? = some last →
      levelOf first ≤ k → k ≤ levelOf last →
        ∃ i ≤ j, ∃ e, (headings f)[i]? = some e ∧ levelOf e = k) := by
  obtain ⟨places, ascending, exactly, reports⟩ := exists_skips (headings f)
  change List.Forall₂ _ places (headingOrder.scan settings f) at reports
  refine ⟨sites_headings f, ascending_headings, fun e => tag_of_mem_headings,
    ⟨places, ascending, exactly, reports⟩, ?_⟩
  intro silent first last j k start here low high
  have none : places = [] := List.forall₂_nil_right_iff.mp (silent ▸ reports)
  have steps : ∀ i, ¬ SkipsAt (headings f) i := by
    intro i skips
    rw [← exactly i, none] at skips
    exact List.not_mem_nil skips
  exact exists_level steps start here low high

end JsxAudit.Rule
