import JsxAudit.Proofs.Repair.Replay
import JsxAudit.Proofs.Text.Bytes

/-!
What fixes leave in place.

A splice cuts out the bytes of its range and moves those behind it. `Splice.moved?` says where a
byte goes, and `Splice.movedBy?` follows it through several splices. A byte that none of them cuts
out stays what it is, and such bytes keep their order: `kept_foldl`. Fixing a file comes to the
splices of the fixes that are carried out, each of them in the file that the fixes before it have
left: `apply_kept`.
-/

namespace JsxAudit.Repair

open Source Audit

variable {parser : TreeParser} {f g : SourceFile} {v : Violation} {bytes : List UInt8}
  {splices : List Splice} {i j i' j' : Nat}

/-! ### Splices -/

namespace Splice

variable {s : Splice}

/-- The place of a byte after a splice, if it lies outside the range that is cut out. -/
def moved? (s : Splice) (i : Nat) : Option Nat :=
  if i < s.start then some i
  else if s.stop ≤ i then some (i - s.stop + s.start + (Text.utf8 s.text).length)
  else none

/-- The place of a byte after some splices. -/
def movedBy? (splices : List Splice) (i : Nat) : Option Nat :=
  splices.foldlM (fun i s => s.moved? i) i

theorem moved?_cases (h : s.moved? i = some j) :
    i < s.start ∧ j = i ∨
      s.start ≤ i ∧ s.stop ≤ i ∧ j = i - s.stop + s.start + (Text.utf8 s.text).length := by
  unfold moved? at h
  split at h
  · rename_i front
    exact .inl ⟨front, (Option.some.inj h).symm⟩
  · rename_i behind
    split at h
    · rename_i outside
      exact .inr ⟨Nat.le_of_not_lt behind, outside, (Option.some.inj h).symm⟩
    · cases h

/-- A byte outside the range is found at its new place. -/
theorem getElem?_replaceIn {b : UInt8} (here : bytes[i]? = some b) (moved : s.moved? i = some j) :
    (replaceIn bytes s)[j]? = some b := by
  obtain ⟨inside, -⟩ := List.getElem?_eq_some_iff.mp here
  unfold replaceIn
  rcases moved?_cases moved with ⟨front, rfl⟩ | ⟨behind, outside, rfl⟩
  · have shown : j < (bytes.take s.start).length := by
      rw [List.length_take]
      omega
    rw [List.append_assoc, List.getElem?_append_left shown, List.getElem?_take_of_lt front, here]
  · have front : (bytes.take s.start).length = s.start := by
      rw [List.length_take]
      omega
    have place : i - s.stop + s.start + (Text.utf8 s.text).length =
        (bytes.take s.start ++ Text.utf8 s.text).length + (i - s.stop) := by
      rw [List.length_append, front]
      omega
    rw [place, List.getElem?_append_right (Nat.le_add_right _ _), Nat.add_sub_cancel_left,
      List.getElem?_drop, Nat.add_sub_cancel' outside, here]

/-- Bytes outside the range keep their order. -/
theorem moved?_lt (lt : i < i') (h : s.moved? i = some j) (h' : s.moved? i' = some j') : j < j' := by
  have place := moved?_cases h
  have place' := moved?_cases h'
  omega

theorem movedBy?_cons (s : Splice) (rest : List Splice) (i : Nat) :
    movedBy? (s :: rest) i = (s.moved? i).bind (movedBy? rest) :=
  List.foldlM_cons ..

end Splice

/-- The later bytes are the earlier ones after some splices. The bytes that no splice cuts out are
still there, in their order. -/
structure Kept (before after : List UInt8) (splices : List Splice) : Prop where
  spliced : after = splices.foldl Splice.replaceIn before
  found : ∀ i j b, before[i]? = some b → Splice.movedBy? splices i = some j → after[j]? = some b
  ordered : ∀ i i' j j', i < i' → Splice.movedBy? splices i = some j →
    Splice.movedBy? splices i' = some j' → j < j'

/-- Splices keep whatever they do not cut out, wherever their ranges lie. -/
theorem kept_foldl (bytes : List UInt8) (splices : List Splice) :
    Kept bytes (splices.foldl Splice.replaceIn bytes) splices := by
  induction splices generalizing bytes with
  | nil =>
    refine ⟨rfl, fun i j b here moved => ?_, fun i i' j j' lt h h' => ?_⟩
    · cases moved
      exact here
    · cases h
      cases h'
      exact lt
  | cons s rest ih =>
    obtain ⟨-, found, ordered⟩ := ih (Splice.replaceIn bytes s)
    refine ⟨rfl, fun i j b here moved => ?_, fun i i' j j' lt h h' => ?_⟩
    · rw [Splice.movedBy?_cons] at moved
      obtain ⟨mid, first, rest⟩ := Option.bind_eq_some_iff.mp moved
      exact found mid j b (Splice.getElem?_replaceIn here first) rest
    · rw [Splice.movedBy?_cons] at h h'
      obtain ⟨mid, first, rest⟩ := Option.bind_eq_some_iff.mp h
      obtain ⟨mid', first', rest'⟩ := Option.bind_eq_some_iff.mp h'
      exact ordered mid mid' j j' (Splice.moved?_lt lt first first') rest rest'

/-! ### Fixes -/

/-- The splices of the fix of a violation, the last one first; none if the fix has no text. -/
def splicesFor (f : SourceFile) (v : Violation) : List Splice :=
  match v.fix with
  | none => []
  | some fix =>
    match Deferred.resolve fix.value with
    | .ok (some value) => Splice.descending (editFor v.rule fix.type f v value)
    | _ => []

/-- The splices of some fixes in the order in which they are carried out, each fix in the file that
the fixes before it have left. A fix that is skipped has none. -/
def splicesOf (parser : TreeParser) : SourceFile → List Violation → List Splice
  | _, [] => []
  | f, v :: rest =>
    match fixOne? parser f v with
    | .ok (some g) => splicesFor f v ++ splicesOf parser g rest
    | _ => splicesOf parser f rest

/-- A fix that is carried out leaves the file with its splices. -/
theorem bytes_of_fixOne? (h : fixOne? parser f v = .ok (some g)) :
    g.bytes = (splicesFor f v).foldl Splice.replaceIn f.bytes := by
  obtain ⟨fix, value, text, given, known, -, spliced, parsed⟩ := fixOne?_cases h
  obtain ⟨-, -, same⟩ := parseWith_eq_some parsed
  have edits : splicesFor f v = Splice.descending (editFor v.rule fix.type f v value) := by
    simp only [splicesFor, given, known]
  rw [g.bytes_eq, same, edits]
  exact Text.decode?_eq_some.mp spliced

/-- A run of fixes leaves the file with the splices of the fixes. -/
theorem bytes_of_foldlM {violations : List Violation} {p q : Progress}
    (h : violations.foldlM (advance parser) p = .ok q) :
    q.file.bytes = (splicesOf parser p.file violations).foldl Splice.replaceIn p.file.bytes := by
  induction violations generalizing p with
  | nil =>
    cases h
    rfl
  | cons v rest ih =>
    rw [List.foldlM_cons] at h
    unfold splicesOf
    cases step : advance parser p v with
    | error e =>
      rw [step] at h
      cases h
    | ok mid =>
      rw [step] at h
      rcases advance_cases step with ⟨skipped, rfl⟩ | ⟨file, fixed, rfl⟩
      · rw [skipped]
        exact ih h
      · rw [fixed, List.foldl_append, ← bytes_of_fixOne? fixed]
        exact ih h

/-- What fixing a file leaves of it: all bytes that the splices of the listed fixes do not cut out,
in their order. -/
theorem apply_kept {violations applied : List Violation} {text : String}
    (h : apply parser f violations = .ok (text, applied)) :
    Kept f.bytes (Text.utf8 text) (splicesOf parser f applied) := by
  obtain ⟨-, file, rfl, run⟩ := apply_eq_ok h
  rw [← file.bytes_eq, bytes_of_foldlM run.replay]
  exact kept_foldl _ _

end JsxAudit.Repair
