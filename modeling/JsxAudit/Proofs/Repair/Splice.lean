import JsxAudit.Proofs.Data.StableSort
import JsxAudit.Proofs.Text.Bytes
import JsxAudit.Repair.Edit

/-!
Splices carried out at once.

Splices go from the last to the first, so that none of them moves the range of another, and what
comes out is the text with each range replaced where it stands (`bytesAfter_eq_weave`). In which
order they are given makes no difference. If the ranges end at boundaries of characters, what comes
out is a text again (`spliced?_of_apart`).
-/

namespace JsxAudit.Repair.Splice

open Text

variable {bytes : List UInt8} {text : String} {splices rising : List Splice}
  {length position : Nat}

/-! ### From the last to the first -/

theorem descending_of_perm (same : rising.Perm splices)
    (ascending : rising.Pairwise fun a b => a.start < b.start) :
    descending splices = rising.reverse := by
  refine Data.mergeSort_eq_reverse ?_ ?_ (fun a b => of_decide_eq_true) same ascending
  · intro a b c
    simp only [decide_eq_true_eq]
    omega
  · intro a b
    simp only [Bool.or_eq_true, decide_eq_true_eq]
    omega

/-- Ascending splices are carried out from the last to the first. -/
theorem spliced?_ascending (bytes : List UInt8)
    (ascending : splices.Pairwise fun a b => a.start < b.start) :
    spliced? bytes splices = decode? (splices.reverse.foldl replaceIn bytes) := by
  rw [spliced?, bytesAfter, descending_of_perm (.refl _) ascending]

/-- The bytes after one splice alone. -/
theorem spliced?_singleton (bytes : List UInt8) (s : Splice) :
    spliced? bytes [s] = decode? (replaceIn bytes s) :=
  spliced?_ascending bytes (List.pairwise_singleton _ _)

/-! ### All at once -/

theorem le_of_disjoint (h : Disjoint length position splices) : position ≤ length := by
  induction splices generalizing position with
  | nil => exact h
  | cons s rest ih => exact Nat.le_trans h.1 (Nat.le_trans h.2.1 (ih h.2.2))

/-- Splices behind a position leave what stands before it. -/
theorem foldl_reverse_eq_weave (h : Disjoint bytes.length position splices) :
    splices.reverse.foldl replaceIn bytes =
      bytes.take position ++ weave bytes position splices := by
  induction splices generalizing position with
  | nil => exact (List.take_append_drop position bytes).symm
  | cons s rest ih =>
    obtain ⟨before, span, behind⟩ := h
    have length : (bytes.take s.stop).length = s.stop :=
      List.length_take_of_le (le_of_disjoint behind)
    have front : (bytes.take s.stop ++ weave bytes s.stop rest).take s.start =
        bytes.take position ++ slice bytes position s.start := by
      rw [List.take_append_of_le_length (by omega), List.take_take, Nat.min_eq_left span,
        take_append_slice bytes before]
    have back : (bytes.take s.stop ++ weave bytes s.stop rest).drop s.stop =
        weave bytes s.stop rest := by
      rw [List.drop_append_of_le_length (by omega), List.drop_of_length_le (by omega),
        List.nil_append]
    rw [List.reverse_cons, List.foldl_append, ih behind, List.foldl_cons, List.foldl_nil, replaceIn,
      front, back, weave, List.append_assoc, List.append_assoc, List.append_assoc]

/-- Splices that do not overlap are carried out as if at once, in whichever order they are given. -/
theorem bytesAfter_of_perm (same : rising.Perm splices)
    (ascending : rising.Pairwise fun a b => a.start < b.start)
    (h : Disjoint bytes.length 0 rising) : bytesAfter bytes splices = weave bytes 0 rising := by
  rw [bytesAfter, descending_of_perm same ascending, foldl_reverse_eq_weave h, List.take_zero,
    List.nil_append]

theorem bytesAfter_eq_weave (ascending : splices.Pairwise fun a b => a.start < b.start)
    (h : Disjoint bytes.length 0 splices) : bytesAfter bytes splices = weave bytes 0 splices :=
  bytesAfter_of_perm (.refl _) ascending h

/-! ### Splices in any order -/

/-- Two splices begin at different offsets, and neither range has a part of the other. -/
def Separate (a b : Splice) : Prop :=
  a.start ≠ b.start ∧ (a.stop ≤ b.start ∨ b.stop ≤ a.start)

instance (a b : Splice) : Decidable (Separate a b) :=
  inferInstanceAs (Decidable (_ ∧ _))

/-- Splices whose ranges are stretches of characters of the text and do not overlap. -/
structure Apart (text : String) (splices : List Splice) : Prop where
  spans : ∀ s ∈ splices, s.start ≤ s.stop
  cuts : ∀ s ∈ splices, IsCut text s.start ∧ IsCut text s.stop
  separate : splices.Pairwise Separate

/-- The splices from the lowest start up. -/
def ascending (splices : List Splice) : List Splice :=
  splices.mergeSort fun a b => a.start ≤ b.start

theorem ascending_perm (splices : List Splice) : (ascending splices).Perm splices :=
  List.mergeSort_perm _ _

theorem disjoint_of_pairwise (inside : ∀ s ∈ splices, s.start ≤ s.stop ∧ s.stop ≤ length)
    (behind : ∀ s ∈ splices, position ≤ s.start) (within : position ≤ length)
    (apart : splices.Pairwise fun a b => a.stop ≤ b.start) : Disjoint length position splices := by
  induction splices generalizing position with
  | nil => exact within
  | cons s rest ih =>
    obtain ⟨span, others⟩ := List.forall_mem_cons.mp inside
    obtain ⟨next, apart⟩ := List.pairwise_cons.mp apart
    exact ⟨behind s List.mem_cons_self, span.1, ih others next span.2 apart⟩

namespace Apart

variable (h : Apart text splices)

include h

/-- Splices that do not overlap end where the next one begins or before. -/
theorem pairwise_ascending :
    (ascending splices).Pairwise fun a b => a.start < b.start ∧ a.stop ≤ b.start := by
  have sorted : (ascending splices).Pairwise fun a b => a.start ≤ b.start := by
    refine (List.pairwise_mergeSort ?_ ?_ splices).imp of_decide_eq_true
    · intro a b c
      simp only [decide_eq_true_eq]
      omega
    · intro a b
      simp only [Bool.or_eq_true, decide_eq_true_eq]
      omega
  have separate : (ascending splices).Pairwise Separate :=
    h.separate.perm (ascending_perm splices).symm fun {a b} ⟨ne, apart⟩ => ⟨ne.symm, apart.symm⟩
  refine (sorted.and separate).imp_of_mem fun {a b} _ mem ⟨le, ne, apart⟩ => ?_
  have span := h.spans b ((ascending_perm splices).mem_iff.mp mem)
  omega

theorem disjoint : Disjoint (utf8 text).length 0 (ascending splices) := by
  refine disjoint_of_pairwise (fun s mem => ?_) (fun _ _ => Nat.zero_le _) (Nat.zero_le _)
    (h.pairwise_ascending.imp And.right)
  have given := (ascending_perm splices).mem_iff.mp mem
  exact ⟨h.spans s given, (h.cuts s given).2.le_length⟩

end Apart

/-- Texts between texts are texts. -/
theorem isText_weave (cuts : ∀ s ∈ splices, IsCut text s.start ∧ IsCut text s.stop)
    (apart : Disjoint (utf8 text).length position splices) (cut : IsCut text position) :
    IsText (weave (utf8 text) position splices) := by
  induction splices generalizing position with
  | nil =>
    have rest := (isText_slice_iff apart (Nat.le_refl _)).mpr (.inr ⟨cut, isCut_length text⟩)
    rwa [slice, List.take_length] at rest
  | cons s rest ih =>
    obtain ⟨⟨left, right⟩, others⟩ := List.forall_mem_cons.mp cuts
    obtain ⟨before, -, behind⟩ := apart
    have gap := (isText_slice_iff before left.le_length).mpr (.inr ⟨cut, left⟩)
    exact (gap.append (isText_utf8 s.text)).append (ih others behind right)

/-- Splices whose ranges are stretches of characters that do not overlap, given in any order, lead to
a text. It is made of the stretches between the ranges, as they are, and of the new texts in place of
the ranges, in the order of the ranges in the text. -/
theorem spliced?_of_apart (h : Apart text splices) :
    (ascending splices).Perm splices ∧
      (ascending splices).Pairwise (fun a b => a.start < b.start ∧ a.stop ≤ b.start) ∧
      ∃ result, spliced? (utf8 text) splices = some result ∧
        utf8 result = weave (utf8 text) 0 (ascending splices) := by
  have same := ascending_perm splices
  have rising := h.pairwise_ascending
  have woven := bytesAfter_of_perm same (rising.imp And.left) h.disjoint
  have cuts : ∀ s ∈ ascending splices, IsCut text s.start ∧ IsCut text s.stop := fun s mem =>
    h.cuts s (same.mem_iff.mp mem)
  obtain ⟨result, written⟩ := isText_weave cuts h.disjoint (isCut_zero text)
  refine ⟨same, rising, result, ?_, written⟩
  rw [spliced?, woven, ← written, decode?_utf8]

/-- Insertions at both ends, a replaced letter of two bytes with another range right behind it, and a
blank that goes, in no order. -/
theorem spliced?_of_apart_greeting :
    let text := "héllo wörld"
    let splices : List Splice :=
      [⟨13, 13, ">"⟩, ⟨1, 3, "e"⟩, ⟨0, 0, "<"⟩, ⟨6, 7, ""⟩, ⟨3, 6, "y"⟩]
    Apart text splices ∧
      ascending splices = [⟨0, 0, "<"⟩, ⟨1, 3, "e"⟩, ⟨3, 6, "y"⟩, ⟨6, 7, ""⟩, ⟨13, 13, ">"⟩] ∧
      weave (utf8 text) 0 (ascending splices) = utf8 "<heywörld>" ∧
      spliced? (utf8 text) splices = some "<heywörld>" := by
  intro text splices
  have apart : Apart text splices := ⟨by decide, by decide, by decide⟩
  have sorted : ascending splices =
      [⟨0, 0, "<"⟩, ⟨1, 3, "e"⟩, ⟨3, 6, "y"⟩, ⟨6, 7, ""⟩, ⟨13, 13, ">"⟩] := by
    have same := (ascending_perm splices).trans (by decide : splices.Perm
      [⟨0, 0, "<"⟩, ⟨1, 3, "e"⟩, ⟨3, 6, "y"⟩, ⟨6, 7, ""⟩, ⟨13, 13, ">"⟩])
    have rising := apart.pairwise_ascending.imp And.left
    exact same.eq_of_pairwise (fun a b _ _ lt gt => absurd lt (Nat.lt_asymm gt)) rising (by decide)
  have woven : weave (utf8 text) 0 (ascending splices) = utf8 "<heywörld>" := by
    rw [sorted]
    decide
  obtain ⟨-, -, result, spliced, written⟩ := spliced?_of_apart apart
  rw [utf8_injective (written.trans woven)] at spliced
  exact ⟨apart, sorted, woven, spliced⟩

end JsxAudit.Repair.Splice
