import JsxAudit.Proofs.Repair.Course

/-!
Anchors stay right while a file is fixed.

Fixes run from the last anchor to the first. As long as no splice begins before the anchor of its own
violation, the text still begins with what stood before the anchor of any violation that is yet to
come: `bytes_before_anchor`. An anchor inside the file therefore keeps its line and its column. Only
an anchor past the end can get text before it, from a fix that writes there.
-/

namespace JsxAudit.Source.SourceFile

/-- The position of an offset depends on the bytes before it alone. -/
theorem position_congr {f g : SourceFile} {offset : Nat}
    (same : g.bytes.take offset = f.bytes.take offset) : g.position offset = f.position offset := by
  unfold position
  rw [same]

end JsxAudit.Source.SourceFile

namespace JsxAudit.Repair

open Source Audit

variable {parser : TreeParser} {f : SourceFile} {violations done left : List Violation}
  {u v : Violation} {p : Progress} {bytes bytes' : List UInt8} {offset : Nat}

/-! ### Bytes before an offset -/

/-- One splice at an offset or behind it leaves what stands before the offset. -/
theorem Splice.take_prefix_replaceIn {s : Splice} (behind : offset ≤ s.start) :
    bytes.take offset <+: Splice.replaceIn bytes s := by
  have front : bytes.take offset <+: bytes.take s.start := List.take_prefix_take_left behind
  unfold Splice.replaceIn
  rw [List.append_assoc]
  exact front.trans (List.prefix_append _ _)

theorem Splice.take_prefix_foldl {splices : List Splice} (behind : ∀ s ∈ splices, offset ≤ s.start) :
    bytes.take offset <+: splices.foldl Splice.replaceIn bytes := by
  induction splices generalizing bytes with
  | nil => exact List.take_prefix _ _
  | cons s rest ih =>
    obtain ⟨first, others⟩ := List.forall_mem_cons.mp behind
    have kept : bytes.take offset <+: (Splice.replaceIn bytes s).take offset :=
      List.prefix_take_iff.mpr ⟨Splice.take_prefix_replaceIn first, List.length_take_le _ _⟩
    exact kept.trans (ih others)

/-- Bytes that begin like others up to an offset agree with them up to it, unless the offset is past
the end of the others and something has come behind them. -/
theorem take_eq_take_iff_of_prefix (begins : bytes.take offset <+: bytes') :
    bytes'.take offset = bytes.take offset ↔ offset ≤ bytes.length ∨ bytes' = bytes := by
  constructor
  · intro same
    refine or_iff_not_imp_left.mpr fun past => ?_
    have whole : bytes.take offset = bytes := List.take_of_length_le (by omega)
    have length := congrArg List.length same
    rw [whole, List.length_take] at length
    rw [← whole, ← same, List.take_of_length_le (by omega)]
  · rintro (inside | rfl)
    · have front := List.prefix_iff_eq_take.mp begins
      rwa [List.length_take_of_le inside, eq_comm] at front
    · rfl

/-! ### Runs -/

/-- No splice of the fix begins before the anchor of its violation. -/
def Step.IsBehindAnchor (step : Step) : Prop :=
  ∀ anchor ∈ step.violation.anchor, ∀ s ∈ step.splices, anchor ≤ s.start

theorem fst_le_of_keyLe {a b : Nat × Nat × Nat} (le : keyLe a b) : a.1 ≤ b.1 := by
  simp only [keyLe, Bool.or_eq_true, Bool.and_eq_true, decide_eq_true_eq] at le
  omega

theorem isBehindAnchor_singleton {s : Splice} (splices : splicesFor f v = [s])
    (behind : ∀ anchor ∈ v.anchor, anchor ≤ s.start) : (Step.mk f v).IsBehindAnchor := by
  intro anchor own s' made
  rw [Step.splices, splices, List.mem_singleton] at made
  rw [made]
  exact behind anchor own

/-- Violations are processed from the last anchor to the first. -/
theorem anchor_le_of_processed (order : processingOrder violations = done ++ left)
    (processed : v ∈ done) (pending : u ∈ left) : u.anchor.getD 0 ≤ v.anchor.getD 0 := by
  have sorted := processingOrder_descending violations
  rw [order, List.pairwise_append] at sorted
  exact fst_le_of_keyLe (sorted.2.2 v processed u pending)

/-- While a file is fixed, and no splice so far begins before the anchor of its own violation: the
text begins with the bytes that stood before the anchor of any violation yet to be processed. These
are still the bytes before the anchor, unless it is past the end of the file and the text has
changed; and inside the file, the anchor keeps its line and its column. -/
theorem bytes_before_anchor (order : processingOrder violations = done ++ left)
    (run : done.foldlM (advance parser) ⟨f, []⟩ = .ok p)
    (behind : ∀ step ∈ carriedOut parser f done, step.IsBehindAnchor)
    (pending : u ∈ left) {anchor : Nat} (anchored : u.anchor = some anchor) :
    f.bytes.take anchor <+: p.file.bytes ∧
      (p.file.bytes.take anchor = f.bytes.take anchor ↔
        anchor ≤ f.bytes.length ∨ p.file.bytes = f.bytes) ∧
      (anchor ≤ f.bytes.length → p.file.position anchor = f.position anchor) := by
  have starts : ∀ s ∈ splicesOf parser f done, anchor ≤ s.start := by
    intro s mem
    rw [splicesOf_eq] at mem
    obtain ⟨step, carried, made⟩ := List.mem_flatMap.mp mem
    have le := anchor_le_of_processed order (mem_of_mem_carriedOut carried) pending
    rw [anchored, Option.getD_some] at le
    cases own : step.violation.anchor with
    | none =>
      rw [own, Option.getD_none] at le
      omega
    | some first =>
      rw [own, Option.getD_some] at le
      exact Nat.le_trans le (behind step carried first own s made)
  have begins : f.bytes.take anchor <+: p.file.bytes := by
    rw [bytes_of_foldlM run]
    exact Splice.take_prefix_foldl starts
  have same := take_eq_take_iff_of_prefix begins
  exact ⟨begins, same, fun inside => SourceFile.position_congr (same.mpr (.inl inside))⟩

/-- An attribute goes into the second of two elements. What stands before the anchor of the first
one is still there. -/
theorem bytes_before_anchor_siblings :
    let second : Violation :=
      { rule := "id", filePath := "a.tsx", line := 1, column := 8, element := "<b/>", message := ""
        fix := some ⟨.insertAttr, .literal "x", some "id"⟩, anchor := some 7, tag := some "b" }
    let first := { second with column := 4, element := "<a/>", anchor := some 3, tag := some "a" }
    processingOrder [second, first] = [second] ++ [first] ∧
      ∃ f ∈ SourceFile.parse "a.tsx" "<p><a/><b/></p>", ∃ p,
        [second].foldlM (advance Syntax.parse) ⟨f, []⟩ = .ok p ∧
        p.file.text = "<p><a/><b id=\"x\"/></p>" ∧
        (∀ step ∈ carriedOut Syntax.parse f [second], step.IsBehindAnchor) ∧
        p.file.bytes.take 3 = f.bytes.take 3 ∧ p.file.position 3 = f.position 3 := by
  intro second first
  have computed : ∃ f ∈ SourceFile.parse "a.tsx" "<p><a/><b/></p>",
      ∃ g ∈ SourceFile.parse f.path "<p><a/><b id=\"x\"/></p>",
      editFor "id" .insertAttr f second "x" = [⟨9, 9, " id=\"x\""⟩] ∧
      Text.decode? (Splice.replaceIn f.bytes ⟨9, 9, " id=\"x\""⟩) =
        some "<p><a/><b id=\"x\"/></p>" ∧ 3 ≤ f.bytes.length := by
    decide +kernel
  obtain ⟨f, read, g, parsed, edit, spliced, inside⟩ := computed
  have order : processingOrder [second, first] = [second] ++ [first] :=
    List.mergeSort_of_pairwise (by decide)
  have fixed := fixOne?_singleton second ⟨.insertAttr, .literal "x", some "id"⟩ "x" rfl rfl edit
    spliced parsed
  obtain ⟨run, carried⟩ := carriedOut_singleton fixed
  have behind : ∀ step ∈ carriedOut Syntax.parse f [second], step.IsBehindAnchor := by
    rw [carried, List.forall_mem_singleton]
    exact isBehindAnchor_singleton (splicesFor_singleton rfl rfl edit) (by decide)
  obtain ⟨-, same, still⟩ := bytes_before_anchor order run behind List.mem_cons_self rfl
  exact ⟨order, f, read, _, run, (parseWith_eq_some parsed).2.2, behind, same.mpr (.inl inside),
    still inside⟩

/-- An empty text is found at every anchor, also past the end of the file, and a span around it goes
to the end. So the text before the next anchor is another one, although the splice begins at the
anchor of its own violation. -/
theorem bytes_before_anchor_past_end :
    let last : Violation :=
      { rule := "emoji-alt", filePath := "a.tsx", line := 1, column := 1, element := ""
        message := "", fix := some ⟨.wrapElement, .literal "x", none⟩, anchor := some 9 }
    let next :=
      { last with rule := "id", line := 2, fix := some ⟨.insertAttr, .literal "x", some "id"⟩
                  anchor := some 8 }
    processingOrder [last, next] = [last] ++ [next] ∧
      ∃ f ∈ SourceFile.parse "a.tsx" "p;", ∃ p,
        [last].foldlM (advance Syntax.parse) ⟨f, []⟩ = .ok p ∧
        (∀ step ∈ carriedOut Syntax.parse f [last], step.IsBehindAnchor) ∧
        p.file.bytes.take 8 ≠ f.bytes.take 8 := by
  intro last next
  have computed : ∃ f ∈ SourceFile.parse "a.tsx" "p;",
      ∃ g ∈ SourceFile.parse f.path "p;<span role=\"img\" aria-label=\"x\"></span>",
      editFor "emoji-alt" .wrapElement f last "x" =
        [⟨9, 9, "<span role=\"img\" aria-label=\"x\"></span>"⟩] ∧
      Text.decode? (Splice.replaceIn f.bytes ⟨9, 9, "<span role=\"img\" aria-label=\"x\"></span>"⟩) =
        some "p;<span role=\"img\" aria-label=\"x\"></span>" ∧
      g.bytes.take 8 ≠ f.bytes.take 8 := by
    decide +kernel
  obtain ⟨f, read, g, parsed, edit, spliced, changed⟩ := computed
  have fixed := fixOne?_singleton last ⟨.wrapElement, .literal "x", none⟩ "x" rfl rfl edit spliced
    parsed
  obtain ⟨run, carried⟩ := carriedOut_singleton fixed
  refine ⟨List.mergeSort_of_pairwise (by decide), f, read, _, run, ?_, changed⟩
  rw [carried, List.forall_mem_singleton]
  exact isBehindAnchor_singleton (splicesFor_singleton rfl rfl edit) (by decide)

end JsxAudit.Repair
