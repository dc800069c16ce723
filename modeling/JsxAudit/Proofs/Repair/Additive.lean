import JsxAudit.Proofs.Repair.Course
import JsxAudit.Proofs.Repair.Emoji

/-!
Fixes that delete nothing.

An attribute goes behind the name of a tag, and a span goes around an emoji. However many fixes of
these two kinds are carried out, in whatever order and wherever they find their places: the bytes of
the file are still there, in their order, and the text is longer by just what has been put in
(`apply_gains`). `Gains` is what one such fix does, and runs are put together of it.
-/

namespace JsxAudit.Repair

open Source Audit Text

variable {parser : TreeParser} {f g : SourceFile} {v : Violation}
  {before mid after : List UInt8} {pieces pieces' : List String}

/-! ### Texts that are put in -/

/-- The later bytes are the earlier ones after some texts have been put in, one after the other, each
somewhere into what stands there by then. -/
inductive Gains : List UInt8 → List String → List UInt8 → Prop where
  | nil (bytes : List UInt8) : Gains bytes [] bytes
  | cons {front back after : List UInt8} {piece : String} {rest : List String} :
      Gains (front ++ utf8 piece ++ back) rest after → Gains (front ++ back) (piece :: rest) after

namespace Gains

theorem append (first : Gains before pieces mid) (second : Gains mid pieces' after) :
    Gains before (pieces ++ pieces') after := by
  induction first with
  | nil bytes => exact second
  | cons _ ih => exact .cons (ih second)

/-- Nothing is lost. -/
theorem sublist (h : Gains before pieces after) : before.Sublist after := by
  induction h with
  | nil bytes => exact .refl bytes
  | @cons front back after piece rest _ ih =>
    have kept : (front ++ back).Sublist (front ++ utf8 piece ++ back) := by
      rw [List.append_assoc]
      exact (List.sublist_append_right _ _).append_left front
    exact kept.trans ih

/-- Nothing else is gained. -/
theorem length_eq (h : Gains before pieces after) :
    after.length = before.length + (pieces.flatMap utf8).length := by
  induction h with
  | nil bytes => simp
  | cons _ ih =>
    rw [ih, List.flatMap_cons]
    simp only [List.length_append]
    omega

end Gains

/-! ### One fix -/

theorem gains_insertion (bytes : List UInt8) (place : Nat) (text : String) :
    Gains bytes [text] (Splice.replaceIn bytes ⟨place, place, text⟩) := by
  have parts : Gains (bytes.take place ++ bytes.drop place) [text]
      (Splice.replaceIn bytes ⟨place, place, text⟩) := .cons (.nil _)
  rwa [List.take_append_drop] at parts

/-- The flagged text stays between the two tags. -/
theorem gains_span {start : Nat} (place : placeOf? f v = some start) (name : String) :
    Gains f.bytes [spanOpening name, spanClosing]
      (Splice.replaceIn f.bytes ⟨start, start + (utf8 v.element).length,
        spanOpening name ++ v.element ++ spanClosing⟩) := by
  let stop := start + (utf8 v.element).length
  have parts : f.bytes = f.bytes.take start ++ (utf8 v.element ++ f.bytes.drop stop) := by
    rw [← List.append_assoc]
    exact bytes_eq_of_placeOf? place
  have written : Splice.replaceIn f.bytes ⟨start, stop, spanOpening name ++ v.element ++ spanClosing⟩ =
      f.bytes.take start ++ utf8 (spanOpening name) ++ utf8 v.element ++ utf8 spanClosing ++
        f.bytes.drop stop := by
    simp only [Splice.replaceIn, utf8_append, List.append_assoc]
  have closed : Gains (f.bytes.take start ++ utf8 (spanOpening name) ++ utf8 v.element ++
      f.bytes.drop stop) [spanClosing] _ := .cons (.nil _)
  rw [← written, List.append_assoc] at closed
  have opened := Gains.cons closed
  rwa [← parts] at opened

/-- On its file, the fix is carried out by inserting an attribute or by wrapping an emoji. -/
def Step.IsAdditive (step : Step) : Prop :=
  ∀ fix value, step.violation.fix = some fix → Deferred.resolve fix.value = .ok (some value) →
    editFor step.violation.rule fix.type step.file step.violation value =
        insertAttr step.file step.violation value ∨
      editFor step.violation.rule fix.type step.file step.violation value =
        wrapEmoji step.file step.violation value

theorem Step.isAdditive_of_editFor {step : Step} (edit : ∀ fix, step.violation.fix = some fix →
    editFor step.violation.rule fix.type = insertAttr ∨
      editFor step.violation.rule fix.type = wrapEmoji) : step.IsAdditive := by
  intro fix value given _
  rcases edit fix given with same | same
  · exact .inl (by rw [same])
  · exact .inr (by rw [same])

/-- What a fix puts into its file: an attribute, or the two tags of a span. -/
inductive Step.Inserts (step : Step) : List String → Prop where
  | insertion {fix : Fix} {value name : String} (given : step.violation.fix = some fix)
      (known : Deferred.resolve fix.value = .ok (some value)) (named : fix.attr = some name)
      (edit : editFor step.violation.rule fix.type step.file step.violation value =
        insertAttr step.file step.violation value) :
      step.Inserts [" " ++ attributeText name value]
  | span {fix : Fix} {value : String} (given : step.violation.fix = some fix)
      (known : Deferred.resolve fix.value = .ok (some value))
      (edit : editFor step.violation.rule fix.type step.file step.violation value =
        wrapEmoji step.file step.violation value) :
      step.Inserts [spanOpening value, spanClosing]

theorem gains_of_fixOne? (fixed : fixOne? parser f v = .ok (some g))
    (additive : (Step.mk f v).IsAdditive) :
    ∃ inserted, (Step.mk f v).Inserts inserted ∧ Gains f.bytes inserted g.bytes := by
  obtain ⟨fix, value, text, given, known, some, -, -⟩ := fixOne?_cases fixed
  have after := bytes_of_fixOne? fixed
  rcases additive fix value given known with edit | edit
  · rcases insertAttr_cases f v value with none | ⟨name, place, named, made⟩
    · exact absurd (edit.trans none) some
    · rw [splicesFor_singleton given known (edit.trans made)] at after
      rw [given, Option.bind_some] at named
      rw [after]
      exact ⟨_, .insertion given known named edit, gains_insertion _ _ _⟩
  · have made := wrapEmoji_eq f v value
    cases found : placeOf? f v with
    | none =>
      rw [found] at made
      exact absurd (edit.trans made) some
    | some place =>
      rw [found] at made
      rw [splicesFor_singleton given known (edit.trans made)] at after
      rw [after]
      exact ⟨_, .span given known edit, gains_span found value⟩

/-! ### Whole runs -/

theorem gains_of_foldlM {violations : List Violation} {p q : Progress}
    (run : violations.foldlM (advance parser) p = .ok q)
    (additive : ∀ step ∈ carriedOut parser p.file violations, step.IsAdditive) :
    ∃ inserted, List.Forall₂ Step.Inserts (carriedOut parser p.file violations) inserted ∧
      Gains p.file.bytes inserted.flatten q.file.bytes := by
  refine carriedOut_induction (motive := fun p steps => (∀ step ∈ steps, step.IsAdditive) →
    ∃ inserted, List.Forall₂ Step.Inserts steps inserted ∧
      Gains p.file.bytes inserted.flatten q.file.bytes) run ?_ ?_ additive
  · exact fun _ => ⟨[], .nil, .nil _⟩
  · intro p v g steps fixed rest additive
    obtain ⟨first, others⟩ := List.forall_mem_cons.mp additive
    obtain ⟨here, inserts, gains⟩ := gains_of_fixOne? fixed first
    obtain ⟨later, inserts', gains'⟩ := rest others
    exact ⟨here :: later, .cons inserts inserts', gains.append gains'⟩

/-- Fixes that put in attributes and spans, however many there are and wherever they find their
places, leave all bytes of the file in their order, and the text is longer by what they put in. -/
theorem apply_gains {violations applied : List Violation} {text : String}
    (h : apply parser f violations = .ok (text, applied))
    (additive : ∀ step ∈ carriedOut parser f applied, step.IsAdditive) :
    (carriedOut parser f applied).map Step.violation = applied ∧
      f.bytes.Sublist (utf8 text) ∧
      ∃ inserted, List.Forall₂ Step.Inserts (carriedOut parser f applied) inserted ∧
        Gains f.bytes inserted.flatten (utf8 text) ∧
        (utf8 text).length = f.bytes.length + (inserted.flatten.flatMap utf8).length := by
  obtain ⟨-, file, rfl, run⟩ := apply_eq_ok h
  obtain ⟨inserted, inserts, gains⟩ := gains_of_foldlM run.replay additive
  have listed := applied_of_foldlM run.replay
  rw [← file.bytes_eq]
  exact ⟨listed.symm, gains.sublist, inserted, inserts, gains, gains.length_eq⟩

/-- A span around an emoji, and then an attribute for the element that holds it. -/
theorem apply_gains_rocket :
    let emoji : Violation :=
      { rule := "emoji-alt", filePath := "a.tsx", line := 1, column := 4, element := "🚀"
        message := "", fix := some ⟨.wrapElement, .literal "Rocket", none⟩, anchor := some 3 }
    let named : Violation :=
      { rule := "id", filePath := "a.tsx", line := 1, column := 1, element := "<b>", message := ""
        fix := some ⟨.insertAttr, .literal "x", some "id"⟩, anchor := some 0, tag := some "b" }
    let text := "<b id=\"x\"><span role=\"img\" aria-label=\"Rocket\">🚀</span></b>"
    ∃ f ∈ SourceFile.parse "a.tsx" "<b>🚀</b>",
      apply Syntax.parse f [emoji, named] = .ok (text, [emoji, named]) ∧
      (∀ step ∈ carriedOut Syntax.parse f [emoji, named], step.IsAdditive) ∧
      f.bytes.Sublist (utf8 text) ∧
      ∃ inserted, List.Forall₂ Step.Inserts (carriedOut Syntax.parse f [emoji, named]) inserted ∧
        Gains f.bytes inserted.flatten (utf8 text) ∧
        (utf8 text).length = f.bytes.length + (inserted.flatten.flatMap utf8).length := by
  intro emoji named text
  have computed : ∃ f ∈ SourceFile.parse "a.tsx" "<b>🚀</b>", ∃ g ∈ SourceFile.parse f.path
        "<b><span role=\"img\" aria-label=\"Rocket\">🚀</span></b>",
      ∃ h ∈ SourceFile.parse g.path text,
      editFor "emoji-alt" .wrapElement f emoji "Rocket" =
        [⟨3, 7, "<span role=\"img\" aria-label=\"Rocket\">🚀</span>"⟩] ∧
      decode? (Splice.replaceIn f.bytes
        ⟨3, 7, "<span role=\"img\" aria-label=\"Rocket\">🚀</span>"⟩) =
          some "<b><span role=\"img\" aria-label=\"Rocket\">🚀</span></b>" ∧
      editFor "id" .insertAttr g named "x" = [⟨2, 2, " id=\"x\""⟩] ∧
      decode? (Splice.replaceIn g.bytes ⟨2, 2, " id=\"x\""⟩) = some text := by
    decide +kernel
  obtain ⟨f, read, g, parsed, h, parsed', edit, spliced, edit', spliced'⟩ := computed
  have first := fixOne?_singleton emoji ⟨.wrapElement, .literal "Rocket", none⟩ "Rocket" rfl rfl
    edit spliced parsed
  have second := fixOne?_singleton named ⟨.insertAttr, .literal "x", some "id"⟩ "x" rfl rfl edit'
    spliced' parsed'
  have order : processingOrder [emoji, named] = [emoji, named] :=
    List.mergeSort_of_pairwise (by decide)
  have ended := apply_pair order first second
  rw [(parseWith_eq_some parsed').2.2] at ended
  have additive : ∀ step ∈ carriedOut Syntax.parse f [emoji, named], step.IsAdditive := by
    intro step mem
    refine Step.isAdditive_of_editFor fun fix given => ?_
    rcases List.mem_pair.mp (mem_of_mem_carriedOut mem) with eq | eq
    · rw [eq]
      exact .inr (editFor_emoji _)
    · rw [eq] at given ⊢
      cases given
      exact .inl (editFor_insertAttr (by decide))
  obtain ⟨-, kept, gains⟩ := apply_gains ended additive
  exact ⟨f, read, ended, additive, kept, gains⟩

end JsxAudit.Repair
