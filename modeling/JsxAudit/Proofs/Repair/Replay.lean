import JsxAudit.Proofs.Data.StableSort
import JsxAudit.Proofs.Repair.Splice
import JsxAudit.Repair.Apply

/-!
Skipped fixes leave no trace.

`advance_cases` says all that one violation can do to a run of fixes: nothing, or one new file that
the parser has read and one more violation on the list. `Replayed` collects what a run keeps along
the way, and `foldlM_replayed` proves it for every run by induction. The main statement,
`apply_replay`, says where the text comes from, which violations are listed and in which order, and
that the listed violations alone lead to the same text.
-/

namespace JsxAudit.Repair

open Source Audit

variable {parser : TreeParser} {f g : SourceFile}

/-! ### One fix -/

/-- A file that a parser makes holds the text it was made of, and the parser has read that text. -/
theorem parseWith_eq_some {path text : String}
    (h : SourceFile.parseWith parser path text = some g) :
    parser text = some g.root ∧ g.path = path ∧ g.text = text := by
  obtain ⟨root, read, rfl⟩ := Option.map_eq_some_iff.mp h
  exact ⟨read, rfl, rfl⟩

/-- Everything that a fix which is carried out has gone through. -/
theorem fixOne?_cases {v : Violation} (h : fixOne? parser f v = .ok (some g)) :
    ∃ fix value text, v.fix = some fix ∧ Deferred.resolve fix.value = .ok (some value) ∧
      editFor v.rule fix.type f v value ≠ [] ∧
      Splice.spliced? f.bytes (editFor v.rule fix.type f v value) = some text ∧
      SourceFile.parseWith parser f.path text = some g := by
  unfold fixOne? at h
  split at h
  · cases h
  · rename_i fix given
    split at h
    · cases h
    · cases h
    · rename_i value known
      split at h
      · cases h
      · rename_i splices some_splices
        split at h
        · cases h
        · rename_i text spliced
          exact ⟨fix, value, text, given, known, some_splices, spliced, Except.ok.inj h⟩

/-- A fix that is carried out belongs to a violation with a fix, and leads to a file that the
parser has read. -/
theorem fixOne?_eq_some {v : Violation} (h : fixOne? parser f v = .ok (some g)) :
    v.fix.isSome ∧ g.path = f.path ∧ parser g.text = some g.root := by
  obtain ⟨fix, value, text, given, -, -, -, parsed⟩ := fixOne?_cases h
  obtain ⟨read, path, rfl⟩ := parseWith_eq_some parsed
  exact ⟨Option.isSome_of_eq_some given, path, read⟩

/-- A fix leads to what the parser makes of the text with the splices of the fix. -/
theorem fixOne?_eq {v : Violation} (fix : Fix) (value text : String) (splices : List Splice)
    (found : v.fix = some fix) (known : Deferred.resolve fix.value = .ok (some value))
    (edit : editFor v.rule fix.type f v value = splices) (some_splices : splices ≠ [])
    (spliced : Splice.spliced? f.bytes splices = some text) :
    fixOne? parser f v = .ok (SourceFile.parseWith parser f.path text) := by
  unfold fixOne?
  simp only [found, known, edit]
  cases splices with
  | nil => exact absurd rfl some_splices
  | cons s rest => simp only [spliced]

/-- Everything that one violation can do to a run. -/
theorem advance_cases {p q : Progress} {v : Violation} (h : advance parser p v = .ok q) :
    (fixOne? parser p.file v = .ok none ∧ q = p) ∨
      ∃ file, fixOne? parser p.file v = .ok (some file) ∧ q = ⟨file, p.applied ++ [v]⟩ := by
  unfold advance at h
  cases fixed : fixOne? parser p.file v with
  | error e =>
    rw [fixed] at h
    cases h
  | ok outcome =>
    rw [fixed] at h
    cases outcome with
    | none => exact .inl ⟨rfl, (Except.ok.inj h).symm⟩
    | some file => exact .inr ⟨file, rfl, (Except.ok.inj h).symm⟩

/-! ### Runs of fixes -/

/-- What holds between two points of a run: the violations `done` have been listed in between, the
file is the old one if there are none and one that the parser has read otherwise, and `done` alone
leads from the first point to the second. -/
structure Replayed (parser : TreeParser) (p q : Progress) (done : List Violation) : Prop where
  applied : q.applied = p.applied ++ done
  untouched : done = [] → q = p
  path : q.file.path = p.file.path
  read : q.file = p.file ∨ parser q.file.text = some q.file.root
  replay : done.foldlM (advance parser) p = .ok q

theorem Replayed.refl (parser : TreeParser) (p : Progress) : Replayed parser p p [] where
  applied := (List.append_nil _).symm
  untouched _ := rfl
  path := rfl
  read := .inl rfl
  replay := rfl

/-- A fix that is carried out, followed by a run. -/
theorem Replayed.cons {p q : Progress} {v : Violation} {file : SourceFile} {done : List Violation}
    (fixed : fixOne? parser p.file v = .ok (some file))
    (rest : Replayed parser ⟨file, p.applied ++ [v]⟩ q done) :
    Replayed parser p q (v :: done) := by
  obtain ⟨-, path, read⟩ := fixOne?_eq_some fixed
  refine ⟨?_, nofun, rest.path.trans path, ?_, ?_⟩
  · simpa using rest.applied
  · rcases rest.read with same | read'
    · exact .inr (same ▸ read)
    · exact .inr read'
  · have step : advance parser p v = .ok ⟨file, p.applied ++ [v]⟩ := by
      rw [advance, fixed]
      rfl
    rw [List.foldlM_cons, step]
    exact rest.replay

/-- Every run is the run of those of its violations that it lists. -/
theorem foldlM_replayed {violations : List Violation} {p q : Progress}
    (h : violations.foldlM (advance parser) p = .ok q) :
    ∃ done, done.Sublist violations ∧ Replayed parser p q done := by
  induction violations generalizing p with
  | nil =>
    cases h
    exact ⟨[], List.Sublist.refl _, Replayed.refl parser q⟩
  | cons v rest ih =>
    rw [List.foldlM_cons] at h
    cases step : advance parser p v with
    | error e =>
      rw [step] at h
      cases h
    | ok mid =>
      rw [step] at h
      obtain ⟨done, sub, run⟩ := ih h
      rcases advance_cases step with ⟨-, rfl⟩ | ⟨file, fixed, rfl⟩
      · exact ⟨done, sub.cons v, run⟩
      · exact ⟨v :: done, sub.cons_cons v, run.cons fixed⟩

/-- What every fix keeps of a file, a run keeps. -/
theorem foldlM_invariant {holds : SourceFile → Prop} {violations : List Violation} {p q : Progress}
    (step : ∀ v ∈ violations, ∀ g file, holds g → fixOne? parser g v = .ok (some file) → holds file)
    (start : holds p.file) (h : violations.foldlM (advance parser) p = .ok q) : holds q.file := by
  induction violations generalizing p with
  | nil =>
    cases h
    exact start
  | cons v rest ih =>
    rw [List.foldlM_cons] at h
    cases first : advance parser p v with
    | error e =>
      rw [first] at h
      cases h
    | ok mid =>
      rw [first] at h
      refine ih (fun x mem => step x (List.mem_cons_of_mem _ mem)) ?_ h
      rcases advance_cases first with ⟨-, rfl⟩ | ⟨file, fixed, rfl⟩
      · exact start
      · exact step v List.mem_cons_self _ file start fixed

/-! ### The order of fixes -/

theorem keyLe_trans {a b c : Nat × Nat × Nat} (ab : keyLe a b) (bc : keyLe b c) : keyLe a c := by
  simp only [keyLe, Bool.or_eq_true, Bool.and_eq_true, decide_eq_true_eq] at ab bc ⊢
  omega

theorem keyLe_total (a b : Nat × Nat × Nat) : keyLe a b || keyLe b a := by
  simp only [keyLe, Bool.or_eq_true, Bool.and_eq_true, decide_eq_true_eq]
  omega

theorem keyLe_refl (a : Nat × Nat × Nat) : keyLe a a := by
  simpa using keyLe_total a a

/-- The first violation is not processed after the second one. -/
def precedes (a b : Violation) : Bool :=
  keyLe (orderKey b) (orderKey a)

theorem precedes_trans (a b c : Violation) (ab : precedes a b) (bc : precedes b c) :
    precedes a c :=
  keyLe_trans bc ab

theorem precedes_total (a b : Violation) : precedes a b || precedes b a :=
  keyLe_total (orderKey b) (orderKey a)

/-- The violations with a fix, from the last place to the first, where violations of one place
stand as they do in the list. -/
structure IsProcessingOrder (violations order : List Violation) : Prop where
  perm : order.Perm (violations.filter (·.fix.isSome))
  descending : order.Pairwise (precedes · ·)
  stable : ∀ key, order.filter (orderKey · = key) =
    (violations.filter (·.fix.isSome)).filter (orderKey · = key)

theorem processingOrder_descending (violations : List Violation) :
    (processingOrder violations).Pairwise (precedes · ·) :=
  List.pairwise_mergeSort precedes_trans precedes_total _

/-- Violations of one place are in processing order as they stand. -/
theorem filter_mergeSort_precedes (violations : List Violation) (key : Nat × Nat × Nat) :
    (violations.mergeSort precedes).filter (orderKey · = key) =
      violations.filter (orderKey · = key) := by
  refine Data.filter_mergeSort precedes_trans precedes_total
    (fun a b at_key at_key' => ?_) violations
  rw [precedes, of_decide_eq_true at_key, of_decide_eq_true at_key']
  exact keyLe_refl key

theorem isProcessingOrder_processingOrder (violations : List Violation) :
    IsProcessingOrder violations (processingOrder violations) where
  perm := List.mergeSort_perm _ _
  descending := processingOrder_descending violations
  stable := filter_mergeSort_precedes _

/-- Violations in processing order are processed in the order in which they stand. -/
theorem processingOrder_of_sublist {violations done : List Violation}
    (sub : done.Sublist (processingOrder violations)) : processingOrder done = done := by
  have fixable : done.filter (·.fix.isSome) = done := by
    refine List.filter_eq_self.mpr fun v mem => ?_
    exact (List.mem_filter.mp (List.mem_mergeSort.mp (sub.subset mem))).2
  rw [processingOrder, fixable]
  exact List.mergeSort_of_pairwise ((processingOrder_descending violations).sublist sub)

/-! ### Whole runs -/

/-- The text and the list of a run, and the run of the list. -/
theorem apply_eq_ok {violations : List Violation} {text : String} {applied : List Violation}
    (h : apply parser f violations = .ok (text, applied)) :
    applied.Sublist (processingOrder violations) ∧
      ∃ file, file.text = text ∧ Replayed parser ⟨f, []⟩ ⟨file, applied⟩ applied := by
  unfold apply applyAll at h
  cases run : (processingOrder violations).foldlM (advance parser) ⟨f, []⟩ with
  | error e =>
    rw [run] at h
    cases h
  | ok q =>
    rw [run] at h
    cases h
    obtain ⟨done, sub, replayed⟩ := foldlM_replayed run
    have listed : q.applied = done := replayed.applied
    rw [listed]
    exact ⟨sub, q.file, rfl, listed ▸ replayed⟩

/-- One violation whose fix is carried out. -/
theorem apply_single {v : Violation} (fixed : fixOne? parser f v = .ok (some g)) :
    apply parser f [v] = .ok (g.text, [v]) := by
  have order : processingOrder [v] = [v] := by
    simp [processingOrder, (fixOne?_eq_some fixed).1]
  rw [apply, applyAll, order]
  simp [advance, fixed, Except.map, bind, Except.bind, pure, Except.pure]

/-- The listed violations alone lead to the same text and to the same list. -/
theorem apply_applied {violations : List Violation} {text : String} {applied : List Violation}
    (h : apply parser f violations = .ok (text, applied)) :
    apply parser f applied = .ok (text, applied) := by
  obtain ⟨sub, file, rfl, run⟩ := apply_eq_ok h
  rw [apply, applyAll, processingOrder_of_sublist sub, run.replay]
  rfl

theorem mem_of_mem_applied {violations : List Violation} {text : String} {applied : List Violation}
    (h : apply parser f violations = .ok (text, applied)) {v : Violation} (mem : v ∈ applied) :
    v ∈ violations :=
  (List.mem_filter.mp (List.mem_mergeSort.mp ((apply_eq_ok h).1.subset mem))).1

/-- What every fix keeps of a file, fixing it keeps. -/
theorem apply_invariant {holds : SourceFile → Prop} {violations : List Violation}
    (step : ∀ v ∈ violations, ∀ g file, holds g → fixOne? parser g v = .ok (some file) → holds file)
    (start : holds f) {text : String} {applied : List Violation}
    (h : apply parser f violations = .ok (text, applied)) :
    ∃ file, file.text = text ∧ holds file := by
  obtain ⟨-, file, eq, run⟩ := apply_eq_ok h
  exact ⟨file, eq, foldlM_invariant (fun v mem => step v (mem_of_mem_applied h mem)) start
    run.replay⟩

/-- Whenever fixing a file ends, its text is that of the file or one that the parser has accepted,
and it is that of the file if no violation is listed. The listed violations are some of those with a
fix, from the last place to the first. Fixing the file for the listed violations alone gives the
same text and the same list: what is skipped leaves no trace. -/
theorem apply_replay {violations : List Violation} {text : String} {applied : List Violation}
    (h : apply parser f violations = .ok (text, applied)) :
    (text = f.text ∨ (parser text).isSome) ∧
      (∃ order, IsProcessingOrder violations order ∧ applied.Sublist order) ∧
      (applied = [] → text = f.text) ∧
      apply parser f applied = .ok (text, applied) := by
  have again := apply_applied h
  obtain ⟨sub, file, rfl, run⟩ := apply_eq_ok h
  refine ⟨?_, ⟨_, isProcessingOrder_processingOrder violations, sub⟩, ?_, again⟩
  · rcases run.read with same | read
    · exact .inl (congrArg SourceFile.text same)
    · exact .inr (Option.isSome_of_eq_some read)
  · intro none
    exact congrArg (fun p => p.file.text) (run.untouched none)

/-- Three fixes of one element: one without a text, one that would leave no program, and one that
is carried out. -/
theorem apply_replay_paragraph :
    let f := (SourceFile.parse "a.tsx" "<p/>").get (by decide +kernel)
    let named : Violation :=
      { rule := "id", filePath := "a.tsx", line := 1, column := 1, element := "<p/>", message := ""
        fix := some ⟨.insertAttr, .literal "x", some "id"⟩, anchor := some 0, tag := some "p" }
    let unknown := { named with fix := some ⟨.removeElement, .deferred "none" [], none⟩ }
    let broken := { named with fix := some ⟨.insertElement, .literal "<", none⟩ }
    apply Syntax.parse f [unknown, broken, named] = .ok ("<p id=\"x\"/>", [named]) ∧
      (Syntax.parse "<p id=\"x\"/>").isSome ∧
      apply Syntax.parse f [named] = .ok ("<p id=\"x\"/>", [named]) := by
  intro f named unknown broken
  have order : processingOrder [unknown, broken, named] = [unknown, broken, named] :=
    List.mergeSort_of_pairwise (by decide)
  -- All that needs a tree is computed at once.
  have computed : editFor "id" .insertElement f broken "<" = [⟨0, 0, "<\n"⟩] ∧
      Text.decode? (Splice.replaceIn f.bytes ⟨0, 0, "<\n"⟩) = some "<\n<p/>" ∧
      (SourceFile.parse "a.tsx" "<\n<p/>").isNone ∧
      editFor "id" .insertAttr f named "x" = [⟨2, 2, " id=\"x\""⟩] ∧
      Text.decode? (Splice.replaceIn f.bytes ⟨2, 2, " id=\"x\""⟩) = some "<p id=\"x\"/>" ∧
      (SourceFile.parse "a.tsx" "<p id=\"x\"/>").isSome := by
    decide +kernel
  obtain ⟨line, cut, refused, added, spliced, parses⟩ := computed
  have first : fixOne? Syntax.parse f unknown = .ok none := rfl
  have second : fixOne? Syntax.parse f broken = .ok none := by
    rw [fixOne?_eq ⟨.insertElement, .literal "<", none⟩ "<" "<\n<p/>" _ rfl rfl line (by simp)
      ((Splice.spliced?_singleton _ _).trans cut)]
    exact congrArg Except.ok (Option.isNone_iff_eq_none.mp refused)
  have third : fixOne? Syntax.parse f named =
      .ok (SourceFile.parse "a.tsx" "<p id=\"x\"/>") :=
    fixOne?_eq ⟨.insertAttr, .literal "x", some "id"⟩ "x" _ _ rfl rfl added (by simp)
      ((Splice.spliced?_singleton _ _).trans spliced)
  obtain ⟨g, parsed⟩ := Option.isSome_iff_exists.mp parses
  rw [parsed] at third
  have ended : apply Syntax.parse f [unknown, broken, named] = .ok ("<p id=\"x\"/>", [named]) := by
    rw [← (parseWith_eq_some parsed).2.2, apply, applyAll, order]
    simp [advance, first, second, third, Except.map, bind, Except.bind, pure, Except.pure]
  obtain ⟨-, -, -, again⟩ := apply_replay ended
  have whole : (Syntax.parse "<p id=\"x\"/>").isSome :=
    Option.isSome_iff_exists.mpr ⟨g.root, (parseWith_eq_some parsed).1⟩
  exact ⟨ended, whole, again⟩

end JsxAudit.Repair
