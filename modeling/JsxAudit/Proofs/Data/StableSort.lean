import Mathlib.Data.List.Pairwise

/-!
Stable sorting.

Items with equal keys keep their order when a list is sorted (`filter_mergeSort`), and a sorted list
is known from what it holds for each key (`eq_of_filter_eq`). Together they say what a sorted list
is without looking at the sorting.
-/

namespace JsxAudit.Data

variable {α κ : Type}

/-- Sorting keeps the order of items that may stand in any order. -/
theorem filter_mergeSort {le : α → α → Bool} (trans : ∀ a b c, le a b → le b c → le a c)
    (total : ∀ a b, le a b || le b a) {keep : α → Bool}
    (level : ∀ a b, keep a → keep b → le a b) (items : List α) :
    (items.mergeSort le).filter keep = items.filter keep := by
  have sorted : (items.filter keep).Pairwise (le · ·) := by
    refine List.pairwise_iff_forall_sublist.mpr fun {a b} pair => ?_
    have kept : ∀ x ∈ [a, b], keep x = true := fun x mem =>
      (List.mem_filter.mp (pair.subset mem)).2
    exact level a b (kept a (by simp)) (kept b (by simp))
  have inside : (items.filter keep).Sublist ((items.mergeSort le).filter keep) := by
    have kept := (List.sublist_mergeSort trans total sorted List.filter_sublist).filter keep
    simpa [List.filter_filter] using kept
  refine (inside.eq_of_length ?_).symm
  exact ((List.mergeSort_perm items le).filter _).length_eq.symm

/-- Sorting by a key from the highest to the lowest gives the ascending list of the items turned
around. -/
theorem mergeSort_eq_reverse {le : α → α → Bool} {key : α → Nat} {items rising : List α}
    (trans : ∀ a b c, le a b → le b c → le a c) (total : ∀ a b, le a b || le b a)
    (falls : ∀ a b, le a b → key b ≤ key a) (same : rising.Perm items)
    (ascending : rising.Pairwise fun a b => key a < key b) :
    items.mergeSort le = rising.reverse := by
  have sorted : (items.mergeSort le).Pairwise (le · ·) := List.pairwise_mergeSort trans total items
  have reversed : rising.reverse.Pairwise (le · ·) := by
    refine List.pairwise_reverse.mpr (ascending.imp fun {a b} lt => ?_)
    refine (Bool.or_eq_true_iff.mp (total b a)).resolve_right fun le => ?_
    exact absurd (falls a b le) (Nat.not_le.mpr lt)
  have perm : (items.mergeSort le).Perm rising := (List.mergeSort_perm _ _).trans same.symm
  refine List.Perm.eq_of_pairwise (fun a b mem mem' le ge => ?_) sorted reversed
    (perm.trans (List.reverse_perm rising).symm)
  -- Two items that may stand in either order have the same key, and so are the same.
  by_contra ne
  have apart : rising.Pairwise fun a b => key a ≠ key b := ascending.imp Nat.ne_of_lt
  have : Std.Symm fun a b : α => key a ≠ key b := ⟨fun _ _ ne => ne.symm⟩
  exact apart.forall (perm.mem_iff.mp mem) (List.mem_reverse.mp mem') ne
    (Nat.le_antisymm (falls b a ge) (falls a b le))

section

variable [DecidableEq κ] {key : α → κ} {xs ys : List α}

theorem mem_iff_of_filter_eq (same : ∀ k, xs.filter (key · = k) = ys.filter (key · = k)) {x : α} :
    x ∈ xs ↔ x ∈ ys := by
  have of_filter (zs : List α) : x ∈ zs ↔ x ∈ zs.filter (key · = key x) := by simp
  rw [of_filter xs, of_filter ys, same]

/-- Sorted lists that hold the same items for each key, in the same order, are the same. -/
theorem eq_of_filter_eq {le : κ → κ → Prop} (antisymm : ∀ a b, le a b → le b a → a = b)
    (sorted : xs.Pairwise fun a b => le (key a) (key b))
    (sorted' : ys.Pairwise fun a b => le (key a) (key b))
    (same : ∀ k, xs.filter (key · = k) = ys.filter (key · = k)) : xs = ys := by
  induction xs generalizing ys with
  | nil =>
    cases ys with
    | nil => rfl
    | cons y rest => cases (mem_iff_of_filter_eq same).mpr List.mem_cons_self
  | cons x rest ih =>
    cases ys with
    | nil => cases (mem_iff_of_filter_eq same).mp List.mem_cons_self
    | cons y rest' =>
      obtain ⟨least, sorted⟩ := List.pairwise_cons.mp sorted
      obtain ⟨least', others'⟩ := List.pairwise_cons.mp sorted'
      -- Each of the two first items stands in the other list, so that their keys are equal.
      have keys : key x = key y := by
        rcases List.mem_cons.mp ((mem_iff_of_filter_eq same).mp List.mem_cons_self) with rfl | later
        · rfl
        · rcases List.mem_cons.mp ((mem_iff_of_filter_eq same).mpr List.mem_cons_self) with
            rfl | later'
          · rfl
          · exact antisymm _ _ (least y later') (least' x later)
      have heads := same (key x)
      rw [List.filter_cons_of_pos (by simp), List.filter_cons_of_pos (by simp [keys])] at heads
      obtain rfl := (List.cons.inj heads).1
      refine congrArg _ (ih sorted others' fun k => ?_)
      have held := same k
      by_cases at_key : key x = k
      · rw [List.filter_cons_of_pos (by simpa using at_key),
          List.filter_cons_of_pos (by simpa using at_key)] at held
        exact (List.cons.inj held).2
      · rwa [List.filter_cons_of_neg (by simpa using at_key),
          List.filter_cons_of_neg (by simpa using at_key)] at held

end

end JsxAudit.Data
