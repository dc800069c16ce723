import JsxAudit.Proofs.Report.Score
import JsxAudit.Report.Grouping
import Mathlib.Data.List.Nodup

/-!
The sections of a report, taken as buckets of violations.

Grouping by a key that takes finitely many values only puts a list in another order (`perm_fibers`).
A report groups twice, by section and within a section by rule, so its buckets hold all violations,
each once (`flatMap_found`), and what they cost by rule and number is what the violations cost
(`sum_buckets`).
-/

namespace JsxAudit.Report

open Audit

variable {v : Violation} {vs : List Violation}

/-! ### Grouping by a key -/

/-- A list comes apart into the parts with one key each, for all keys that occur. -/
theorem perm_fibers {α κ : Type} [DecidableEq κ] (key : α → κ) {keys : List κ} {items : List α}
    (nodup : keys.Nodup) (covered : ∀ a ∈ items, key a ∈ keys) :
    (keys.flatMap fun k => items.filter (key · = k)).Perm items := by
  induction keys generalizing items with
  | nil =>
    have none : items = [] := List.eq_nil_iff_forall_not_mem.mpr fun a mem =>
      List.not_mem_nil (covered a mem)
    rw [none, List.flatMap_nil]
  | cons k rest ih =>
    obtain ⟨new, nodup⟩ := List.nodup_cons.mp nodup
    have others : (rest.flatMap fun l => items.filter (key · = l)) =
        rest.flatMap fun l => (items.filter fun a => !decide (key a = k)).filter (key · = l) := by
      refine List.flatMap_congr fun l mem => ?_
      rw [List.filter_filter]
      refine List.filter_congr fun a _ => ?_
      by_cases eq : key a = l
      · have ne : key a ≠ k := fun same => new (same ▸ eq ▸ mem)
        simp [ne]
      · simp [eq]
    have left : ∀ a ∈ items.filter fun a => !decide (key a = k), key a ∈ rest := fun a mem => by
      obtain ⟨mem, ne⟩ := List.mem_filter.mp mem
      exact (List.mem_cons.mp (covered a mem)).resolve_left (by simpa using ne)
    have apart := ih nodup left
    rw [List.flatMap_cons, others]
    exact (apart.append_left _).trans (List.filter_append_perm _ _)

theorem mem_firstOccurrences {x : String} {xs : List String} :
    x ∈ firstOccurrences xs ↔ x ∈ xs := by
  induction xs with
  | nil => rfl
  | cons y rest ih =>
    rw [firstOccurrences, List.mem_cons, List.mem_cons, List.mem_filter, ih]
    by_cases eq : x = y <;> simp [eq]

theorem nodup_firstOccurrences (xs : List String) : (firstOccurrences xs).Nodup := by
  induction xs with
  | nil => exact List.nodup_nil
  | cons x rest ih =>
    rw [firstOccurrences, List.nodup_cons]
    exact ⟨fun mem => by simpa using (List.mem_filter.mp mem).2, ih.filter _⟩

/-! ### Buckets -/

/-- The violations that stand together in a report: those of one rule in one section. -/
structure Bucket where
  place : Section
  rule : String
  found : List Violation

/-- The buckets of a report, in the order in which they are shown. -/
def buckets (vs : List Violation) : List Bucket :=
  (grouped vs).flatMap fun (place, rules) =>
    rules.map fun (rule, found) => ⟨place, rule, found⟩

/-- A section that is not shown has no buckets. -/
theorem buckets_eq (vs : List Violation) :
    buckets vs = Section.all.flatMap fun s =>
      (byRule (vs.filter fun v => Section.of v = s)).map fun (rule, found) => ⟨s, rule, found⟩ := by
  have shown (sections : List (Section × List (String × List Violation))) :
      ((sections.filter fun (_, rules) => !rules.isEmpty).flatMap fun (place, rules) =>
          rules.map fun (rule, found) => Bucket.mk place rule found) =
        sections.flatMap fun (place, rules) =>
          rules.map fun (rule, found) => ⟨place, rule, found⟩ := by
    induction sections with
    | nil => rfl
    | cons group rest ih =>
      obtain ⟨place, rules⟩ := group
      cases rules with
      | nil => exact ih
      | cons b rules => exact congrArg (_ ++ ·) ih
  rw [buckets, grouped, shown, List.flatMap_map]

theorem Section.mem_all (s : Section) : s ∈ all := by
  cases s <;> decide

theorem mem_byRule {rule : String} {found : List Violation} : (rule, found) ∈ byRule vs ↔
    found ≠ [] ∧ found = vs.filter (·.rule = rule) := by
  have occurs : rule ∈ vs.map (·.rule) ↔ vs.filter (·.rule = rule) ≠ [] := by
    simp [List.filter_eq_nil_iff]
  rw [byRule, List.mem_map]
  constructor
  · rintro ⟨rule', mem, eq⟩
    cases eq
    exact ⟨occurs.mp (mem_firstOccurrences.mp mem), rfl⟩
  · rintro ⟨some, rfl⟩
    exact ⟨rule, mem_firstOccurrences.mpr (occurs.mpr some), rfl⟩

/-- In a bucket are all violations of its rule in its section, in the order in which they came. -/
theorem mem_buckets {b : Bucket} : b ∈ buckets vs ↔
    b.found ≠ [] ∧ b.found = vs.filter fun v => Section.of v = b.place ∧ v.rule = b.rule := by
  have both (s : Section) (rule : String) :
      (vs.filter fun v => Section.of v = s).filter (·.rule = rule) =
        vs.filter fun v => Section.of v = s ∧ v.rule = rule := by
    rw [List.filter_filter]
    exact List.filter_congr fun v _ => by simp [and_comm]
  rw [buckets_eq, List.mem_flatMap]
  constructor
  · rintro ⟨s, -, mem⟩
    obtain ⟨⟨rule, found⟩, inside, rfl⟩ := List.mem_map.mp mem
    obtain ⟨some, eq⟩ := mem_byRule.mp inside
    exact ⟨some, eq.trans (both s rule)⟩
  · rintro ⟨some, eq⟩
    refine ⟨b.place, Section.mem_all _, List.mem_map.mpr ⟨(b.rule, b.found), ?_, rfl⟩⟩
    exact mem_byRule.mpr ⟨some, eq.trans (both _ _).symm⟩

/-- No two buckets are for the same rule in the same section. -/
theorem nodup_buckets (vs : List Violation) :
    ((buckets vs).map fun b => (b.place, b.rule)).Nodup := by
  have keys : ((buckets vs).map fun b => (b.place, b.rule)) = Section.all.flatMap fun s =>
      (firstOccurrences ((vs.filter fun v => Section.of v = s).map (·.rule))).map (s, ·) := by
    rw [buckets_eq, List.map_flatMap]
    simp [byRule, Function.comp_def]
  rw [keys, List.nodup_flatMap]
  refine ⟨fun s _ => (nodup_firstOccurrences _).map fun _ _ eq => (Prod.mk.inj eq).2, ?_⟩
  have apart : Section.all.Nodup := by decide
  refine apart.imp fun ne => List.disjoint_left.mpr ?_
  intro key first second
  obtain ⟨rule, -, rfl⟩ := List.mem_map.mp first
  obtain ⟨rule', -, eq⟩ := List.mem_map.mp second
  exact ne (Prod.mk.inj eq).1.symm

/-- The buckets hold the violations and nothing else. -/
theorem flatMap_found (vs : List Violation) : ((buckets vs).flatMap (·.found)).Perm vs := by
  have parts : (buckets vs).flatMap (·.found) = Section.all.flatMap fun s =>
      (firstOccurrences ((vs.filter fun v => Section.of v = s).map (·.rule))).flatMap fun rule =>
        (vs.filter fun v => Section.of v = s).filter (·.rule = rule) := by
    rw [buckets_eq, List.flatMap_assoc]
    simp [byRule, List.flatMap_map]
  rw [parts]
  have sections : (Section.all.flatMap fun s => vs.filter fun v => Section.of v = s).Perm vs :=
    perm_fibers Section.of (by decide) fun v _ => Section.mem_all _
  refine (List.Perm.flatMap_left _ fun s _ => ?_).trans sections
  exact perm_fibers Violation.rule (nodup_firstOccurrences _) fun v mem =>
    mem_firstOccurrences.mpr (List.mem_map_of_mem mem)

/-! ### Costs of buckets -/

theorem cost_append (vs ws : List Violation) : cost (vs ++ ws) = cost vs + cost ws := by
  rw [cost, List.map_append, List.sum_append, cost, cost]

theorem cost_perm {ws : List Violation} (h : vs.Perm ws) : cost vs = cost ws :=
  (h.map _).sum_eq

theorem cost_of_rule {rule : String} (same : ∀ v ∈ vs, v.rule = rule) :
    cost vs = points rule * vs.length := by
  induction vs with
  | nil => simp
  | cons v rest ih =>
    obtain ⟨first, same⟩ := List.forall_mem_cons.mp same
    rw [cost_cons, ih same, first, List.length_cons]
    push_cast
    ring

/-- The points taken off bucket by bucket are those of all violations. -/
theorem sum_buckets (vs : List Violation) :
    ((buckets vs).map fun b => points b.rule * b.found.length).sum = cost vs := by
  have each : ∀ b ∈ buckets vs, ∀ v ∈ b.found, v.rule = b.rule := by
    intro b mem v inside
    rw [(mem_buckets.mp mem).2] at inside
    exact (of_decide_eq_true (List.mem_filter.mp inside).2).2
  rw [← cost_perm (flatMap_found vs)]
  generalize buckets vs = bs at each
  induction bs with
  | nil => rfl
  | cons b rest ih =>
    obtain ⟨first, each⟩ := List.forall_mem_cons.mp each
    rw [List.map_cons, List.sum_cons, List.flatMap_cons, cost_append, ih each, cost_of_rule first]

/-! ### Sections -/

theorem byRule_eq_nil : byRule vs = [] ↔ vs = [] := by
  cases vs with
  | nil => exact ⟨fun _ => rfl, fun _ => rfl⟩
  | cons v rest => simp [byRule, firstOccurrences]

/-- The sections that are shown are those with a violation, in their fixed order. -/
theorem sections_grouped (vs : List Violation) :
    (grouped vs).map (·.1) = Section.all.filter fun s => vs.any fun v => Section.of v = s := by
  have shown (s : Section) : (!(byRule (vs.filter fun v => Section.of v = s)).isEmpty) =
      vs.any fun v => Section.of v = s := by
    rw [Bool.eq_iff_iff, Bool.not_eq_true', List.isEmpty_eq_false_iff, ne_eq, byRule_eq_nil,
      List.filter_eq_nil_iff, List.any_eq_true]
    simp
  rw [grouped, List.filter_map, List.map_map]
  exact (List.map_id _).trans (List.filter_congr fun s _ => shown s)

/-- A report puts every violation into exactly one bucket and loses none. A bucket holds the
violations of its rule in its section as they came, and there is one at most for each rule in a
section. The sections come in their fixed order, those with violations only. The points that the
buckets cost, by rule and number, are what the score takes off a hundred. -/
theorem buckets_partition (vs : List Violation) :
    (grouped vs).map (·.1) = Section.all.filter (fun s => vs.any fun v => Section.of v = s) ∧
    (∀ g ∈ grouped vs, g.2 ≠ []) ∧
    ((buckets vs).map fun b => (b.place, b.rule)).Nodup ∧
    (∀ b ∈ buckets vs, b.found ≠ [] ∧
      b.found = vs.filter fun v => Section.of v = b.place ∧ v.rule = b.rule) ∧
    (∀ v ∈ vs, ∃! b, b ∈ buckets vs ∧ v ∈ b.found) ∧
    ((buckets vs).flatMap (·.found)).Perm vs ∧
    ((buckets vs).map fun b => points b.rule * b.found.length).sum = cost vs ∧
    (score vs : ℤ) = max 0 (min 100 ⌊100 - cost vs + 1 / 2⌋) := by
  refine ⟨sections_grouped vs, ?_, nodup_buckets vs, fun b mem => mem_buckets.mp mem, ?_,
    flatMap_found vs, sum_buckets vs, score_eq vs⟩
  · intro g mem empty
    have shown := (List.mem_filter.mp mem).2
    simp [empty] at shown
  · intro v mem
    let own := vs.filter fun w => Section.of w = Section.of v ∧ w.rule = v.rule
    have inside : v ∈ own := List.mem_filter.mpr ⟨mem, by simp⟩
    refine ⟨⟨Section.of v, v.rule, own⟩, ⟨mem_buckets.mpr ⟨?_, rfl⟩, inside⟩, ?_⟩
    · exact List.ne_nil_of_mem inside
    · rintro ⟨place, rule, found⟩ ⟨bucket, inside⟩
      have eq : found = vs.filter fun w => Section.of w = place ∧ w.rule = rule :=
        (mem_buckets.mp bucket).2
      subst eq
      obtain ⟨rfl, rfl⟩ := of_decide_eq_true (List.mem_filter.mp inside).2
      rfl

end JsxAudit.Report
