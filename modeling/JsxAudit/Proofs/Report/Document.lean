import JsxAudit.Report.Result
import JsxAudit.Proofs.Data.Keyed
import JsxAudit.Proofs.Data.JsonRoundTrip

/-!
The report of a run says what its result says.

By the grammar of JSON the text of a report denotes the document of its result and nothing else, and
in that document no field hides another (`json_denotes`). A document shows everything that is
reported of a result, so different results never have the same report. What only repairs need, the
place of a node and its tag, is not reported.
-/

namespace JsxAudit.Audit

open Data

/-! ### What is reported -/

/-- The violation without what only repairs need. -/
def Violation.reported (v : Violation) : Violation :=
  { v with anchor := none, tag := none }

theorem FixType.ofName?_name (t : FixType) : FixType.ofName? t.name = some t := by
  cases t <;> rfl

theorem FixType.eq_of_name {t u : FixType} (h : t.name = u.name) : t = u := by
  have read := ofName?_name t
  rw [h, ofName?_name] at read
  exact (Option.some.inj read).symm

/-- Parameters as the fields of a table. -/
theorem map_str_injective :
    Function.Injective (List.map fun ((k, v) : String × String) => (k, Value.str v)) := by
  refine List.map_injective_iff.mpr ?_
  rintro ⟨k, v⟩ ⟨l, w⟩ same
  cases same
  rfl

theorem FixValue.eq_of_toValue {a b : FixValue} (h : a.toValue = b.toValue) : a = b := by
  cases a with
  | literal text =>
    cases b with
    | literal => simpa [FixValue.toValue] using h
    | deferred => simp [FixValue.toValue] at h
  | deferred resolver params =>
    cases b with
    | literal => simp [FixValue.toValue] at h
    | deferred resolver' params' =>
      simp only [FixValue.toValue, Value.table.injEq, List.cons.injEq, Prod.mk.injEq,
        Value.str.injEq, true_and, and_true] at h
      rw [h.1, map_str_injective h.2]

theorem eq_of_map_toList {α β : Type} {f : α → β} (inj : Function.Injective f) {a b : Option α}
    (h : a.toList.map f = b.toList.map f) : a = b := by
  have same : a.toList = b.toList := List.map_injective_iff.mpr inj h
  cases a <;> cases b <;> simp_all

theorem Fix.toValue_injective : Function.Injective Fix.toValue := by
  rintro ⟨t, x, attr⟩ ⟨u, y, attr'⟩ h
  simp only [Fix.toValue, Value.table.injEq, List.cons_append, List.nil_append, List.cons.injEq,
    Prod.mk.injEq, Value.str.injEq, true_and] at h
  obtain ⟨type, value, named⟩ := h
  have inj : Function.Injective fun a => ("attribute", Value.str a) := fun a b h => by
    simpa using h
  rw [FixType.eq_of_name type, FixValue.eq_of_toValue value, eq_of_map_toList inj named]

/-- The data of a violation are what is reported of it. -/
theorem Violation.toValue_eq_iff {v w : Violation} :
    v.toValue = w.toValue ↔ v.reported = w.reported := by
  obtain ⟨rule, file, line, column, element, message, fix, anchor, tag⟩ := v
  obtain ⟨rule', file', line', column', element', message', fix', anchor', tag'⟩ := w
  constructor
  · intro h
    simp only [Violation.toValue, Violation.toFields, Value.table.injEq, List.cons_append,
      List.nil_append, List.cons.injEq, Prod.mk.injEq, Value.str.injEq, Value.int.injEq,
      Int.natCast_inj, true_and] at h
    obtain ⟨rfl, rfl, rfl, rfl, rfl, rfl, fixes⟩ := h
    have inj : Function.Injective fun fix : Fix => ("fix", fix.toValue) := fun a b h =>
      Fix.toValue_injective (Prod.mk.inj h).2
    rw [Violation.reported, Violation.reported, eq_of_map_toList inj fixes]
  · intro h
    cases h
    rfl

/-! ### Their data in a document -/

theorem exact_params (params : List (String × String)) :
    Json.Exact (.table (params.map fun (k, v) => (k, .str v))) := by
  refine .table fun field mem => ?_
  obtain ⟨param, -, rfl⟩ := List.mem_map.mp mem
  exact .str param.2

theorem FixValue.exact_toValue (x : FixValue) : Json.Exact x.toValue := by
  cases x with
  | literal text => exact .table (by simp [Json.Exact.str])
  | deferred resolver params => exact .table (by simp [Json.Exact.str, exact_params params])

theorem Fix.exact_toValue (fix : Fix) : Json.Exact fix.toValue :=
  .table (by simp [Json.Exact.str, fix.value.exact_toValue])

theorem Violation.exact_toValue (v : Violation) : Json.Exact v.toValue :=
  .table (by simp [Violation.toFields, Json.Exact.str, Json.Exact.int, Fix.exact_toValue])

/-- Parameters of the text that is to be found. -/
def FixValue.params : FixValue → List (String × String)
  | .literal _ => []
  | .deferred _ params => params

/-- The parameters of a fix have different names. -/
def Violation.NamesParams (v : Violation) : Prop :=
  ∀ fix ∈ v.fix, (fix.value.params.map (·.1)).Nodup

theorem namedOnce_params {params : List (String × String)} (h : (params.map (·.1)).Nodup) :
    Json.NamedOnce (.table (params.map fun (k, v) => (k, .str v))) := by
  refine .table ?_ (by simpa [Function.comp_def] using h)
  intro field mem
  obtain ⟨param, -, rfl⟩ := List.mem_map.mp mem
  exact .str param.2

theorem FixValue.namedOnce_toValue {x : FixValue} (h : (x.params.map (·.1)).Nodup) :
    Json.NamedOnce x.toValue := by
  cases x with
  | literal text => exact .table (by simp [Json.NamedOnce.str]) (by simp)
  | deferred resolver params =>
    have inner := namedOnce_params (show (params.map (·.1)).Nodup from h)
    exact .table (by simp [Json.NamedOnce.str, inner]) (by simp)

theorem Fix.namedOnce_toValue {fix : Fix} (h : (fix.value.params.map (·.1)).Nodup) :
    Json.NamedOnce fix.toValue := by
  refine .table (by simp [Json.NamedOnce.str, FixValue.namedOnce_toValue h]) ?_
  cases fix.attr <;> simp

theorem Violation.namedOnce_toValue {v : Violation} (h : v.NamesParams) :
    Json.NamedOnce v.toValue := by
  have fixes : ∀ fix ∈ v.fix, Json.NamedOnce fix.toValue := fun fix mem =>
    Fix.namedOnce_toValue (h fix mem)
  refine .table (by simpa [Violation.toFields, Json.NamedOnce.str, Json.NamedOnce.int] using fixes) ?_
  unfold Violation.toFields
  cases v.fix <;> simp

end JsxAudit.Audit

namespace JsxAudit.Report

open Audit Data Generation

namespace ScanResult

/-- The result as far as it is reported. -/
def reported (r : ScanResult) : ScanResult :=
  { r with violations := r.violations.map Violation.reported }

theorem map_eq_map_congr {α β γ : Type} {f : α → β} {g : α → γ}
    (same : ∀ a b, f a = f b ↔ g a = g b) {as bs : List α} :
    as.map f = bs.map f ↔ as.map g = bs.map g := by
  induction as generalizing bs with
  | nil => simp
  | cons a as ih =>
    cases bs with
    | nil => simp
    | cons b bs => simp [same, ih]

/-- The document of a result shows what is reported of it and the tokens used. -/
theorem document_eq_iff {r r' : ScanResult} {usage usage' : Option TokenUsage} :
    r.document usage = r'.document usage' ↔ r.reported = r'.reported ∧ usage = usage' := by
  have violations := @map_eq_map_congr _ _ _ _ _ (@Violation.toValue_eq_iff)
  obtain ⟨found, files, elements, score, fixed, before⟩ := r
  obtain ⟨found', files', elements', score', fixed', before'⟩ := r'
  simp only [document, toFields, reported, Value.table.injEq, List.cons_append, List.nil_append,
    List.cons.injEq, Prod.mk.injEq, Value.list.injEq, Value.int.injEq, true_and, violations,
    ScanResult.mk.injEq]
  constructor
  · rintro ⟨same, rfl, rfl, rfl, rfl, optional⟩
    have tokens : Function.Injective fun u : TokenUsage => ("tokens",
        Value.table [("input", .int u.input), ("output", .int u.output), ("total", .int u.total)]) := by
      rintro ⟨input, output⟩ ⟨input', output'⟩ h
      cases h
      rfl
    cases before with
    | none =>
      cases before' with
      | none =>
        cases eq_of_map_toList tokens (List.cons.inj optional).2
        exact ⟨⟨same, rfl, rfl, rfl, rfl, rfl⟩, rfl⟩
      | some => simp at optional
    | some score =>
      cases before' with
      | none => simp at optional
      | some score' =>
        simp only [Option.toList_some, List.map_cons, List.map_nil, List.cons_append,
          List.nil_append, List.cons.injEq, Prod.mk.injEq, Value.int.injEq, true_and] at optional
        obtain ⟨rfl, optional⟩ := optional
        cases eq_of_map_toList tokens optional
        exact ⟨⟨same, rfl, rfl, rfl, rfl, rfl⟩, rfl⟩
  · rintro ⟨⟨same, rfl, rfl, rfl, rfl, rfl⟩, rfl⟩
    exact ⟨same, rfl, rfl, rfl, rfl, rfl⟩

/-! ### The document -/

theorem exact_document (r : ScanResult) (usage : Option TokenUsage) :
    Json.Exact (r.document usage) := by
  have violations : Json.Exact (.list (r.violations.map Violation.toValue)) :=
    .list (by simp [Violation.exact_toValue])
  have tokens (u : TokenUsage) : Json.Exact
      (.table [("input", .int u.input), ("output", .int u.output), ("total", .int u.total)]) :=
    .table (by simp [Json.Exact.int])
  refine .table ?_
  simp [toFields, violations, tokens, or_imp, forall_and, Json.Exact.int, Json.Exact.str]

theorem namedOnce_document {r : ScanResult} {usage : Option TokenUsage}
    (h : ∀ v ∈ r.violations, v.NamesParams) : Json.NamedOnce (r.document usage) := by
  have violations : Json.NamedOnce (.list (r.violations.map Violation.toValue)) := by
    refine .list fun x mem => ?_
    obtain ⟨v, found, rfl⟩ := List.mem_map.mp mem
    exact Violation.namedOnce_toValue (h v found)
  have tokens (u : TokenUsage) : Json.NamedOnce
      (.table [("input", .int u.input), ("output", .int u.output), ("total", .int u.total)]) :=
    .table (by simp [Json.NamedOnce.int]) (by simp)
  refine .table ?_ ?_
  · simp [toFields, violations, tokens, or_imp, forall_and, Json.NamedOnce.int, Json.NamedOnce.str]
  · unfold toFields
    cases r.previousScore <;> cases usage <;> simp

/-- The report of a result denotes its document and nothing else, no field of it hides another, and
it tells apart any two results that differ in what is reported. -/
theorem json_denotes (r : ScanResult) (usage : Option TokenUsage) :
    (∀ v, Json.Denotes (r.json usage) v ↔ v = r.document usage) ∧
    ((∀ x ∈ r.violations, x.NamesParams) → Json.NamedOnce (r.document usage)) ∧
    ∀ (r' : ScanResult) (usage' : Option TokenUsage),
      r'.json usage' = r.json usage ↔ r'.reported = r.reported ∧ usage' = usage := by
  have denotes (r : ScanResult) (usage : Option TokenUsage) :
      Json.Denotes (r.json usage) (r.document usage) := Json.denotes_write (exact_document r usage)
  refine ⟨fun v => ⟨fun h => h.unique (denotes r usage), ?_⟩, ?_, fun r' usage' => ?_⟩
  · rintro rfl
    exact denotes r usage
  · exact namedOnce_document
  · rw [← document_eq_iff]
    constructor
    · intro same
      have other := denotes r' usage'
      rw [same] at other
      exact other.unique (denotes r usage)
    · intro same
      rw [json, json, same]

/-- A result whose texts hold quotes, line breaks, a control character and a letter beyond the first
plane. -/
theorem json_denotes_deferred :
    let odd := String.ofList ['"', '\n', '\u2028', '\x7f', Char.ofNat 0x1D538]
    let fix : Fix := ⟨.insertAttr, .deferred odd [("text", odd), ("icon", odd)], some "alt"⟩
    let v : Violation := ⟨"img-alt", odd, 3, 1, odd, odd, some fix, none, none⟩
    let r : ScanResult := ⟨[v], 1, 2, 98, 0, some 100⟩
    Json.NamedOnce (r.document (some ⟨7, 2⟩)) ∧
      Json.Denotes (r.json (some ⟨7, 2⟩)) (r.document (some ⟨7, 2⟩)) := by
  intro odd fix v r
  obtain ⟨denotes, named, -⟩ := json_denotes r (some ⟨7, 2⟩)
  refine ⟨named ?_, (denotes _).mpr rfl⟩
  simp [r, v, fix, Violation.NamesParams, FixValue.params]

end ScanResult

end JsxAudit.Report
