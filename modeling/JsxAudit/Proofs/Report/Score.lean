import JsxAudit.Report.Score
import Mathlib.Algebra.BigOperators.Group.List.Basic
import Mathlib.Data.List.Perm.Subperm
import Mathlib.Data.Rat.Floor
import Mathlib.Tactic.Linarith
import Mathlib.Tactic.Ring

/-!
The score as a function of what the violations cost.

Weights are kept in half points. Here they are what they stand for, `points` of a rule and the `cost`
of some violations as rational numbers, and `score_eq` says what the score is in these terms: what is
left of a hundred points, a half rounded up, or nothing if less than nothing is left. What is left is
always half of a whole number, rounded down (`balance_eq`), so that questions about two scores are
questions about whole numbers.
-/

namespace JsxAudit.Report

open Audit

variable {v : Violation} {vs ws : List Violation}

/-! ### Penalties -/

theorem penalty_append (vs ws : List Violation) :
    penalty (vs ++ ws) = penalty vs + penalty ws := by
  induction vs with
  | nil => rw [List.nil_append, penalty, Nat.zero_add]
  | cons v rest ih => rw [List.cons_append, penalty, penalty, ih, Nat.add_assoc]

theorem penalty_perm (h : vs.Perm ws) : penalty vs = penalty ws := by
  induction h with
  | nil => rfl
  | cons v _ ih => rw [penalty, penalty, ih]
  | swap v w rest => rw [penalty, penalty, penalty, penalty, Nat.add_left_comm]
  | trans _ _ first second => rw [first, second]

theorem penalty_le_of_sublist (h : vs.Sublist ws) : penalty vs ≤ penalty ws := by
  induction h with
  | slnil => exact Nat.le_refl _
  | cons v _ ih => exact Nat.le_trans ih (Nat.le_add_left _ _)
  | cons_cons v _ ih => exact Nat.add_le_add_left ih _

/-- A lower penalty leaves a score that is no lower. -/
theorem score_anti (h : penalty vs ≤ penalty ws) : score ws ≤ score vs := by
  unfold score scoreAfter
  omega

/-! ### Costs in points -/

/-- The weight of a rule in points. -/
def points (rule : String) : ℚ :=
  weight rule / 2

/-- What violations cost together. -/
def cost (vs : List Violation) : ℚ :=
  (vs.map fun v => points v.rule).sum

/-- What is left of a hundred points, a half rounded up. -/
def balance (vs : List Violation) : ℤ :=
  ⌊100 - cost vs + 1 / 2⌋

@[simp] theorem cost_nil : cost [] = 0 := rfl

@[simp] theorem cost_cons (v : Violation) (vs : List Violation) :
    cost (v :: vs) = points v.rule + cost vs := by
  rw [cost, List.map_cons, List.sum_cons, cost]

theorem cost_eq (vs : List Violation) : cost vs = penalty vs / 2 := by
  induction vs with
  | nil => simp [penalty]
  | cons v rest ih => rw [cost_cons, ih, points, penalty, Nat.cast_add, add_div]

theorem balance_eq (vs : List Violation) : balance vs = (201 - penalty vs : ℤ) / 2 := by
  have halves : 100 - cost vs + 1 / 2 = ((201 - penalty vs : ℤ) : ℚ) / (2 : ℕ) := by
    rw [cost_eq]
    push_cast
    ring
  rw [balance, halves, Rat.floor_intCast_div_natCast]
  rfl

/-- The weight of a rule, rounded down and rounded up. -/
theorem floor_points (rule : String) : ⌊points rule⌋ = (weight rule : ℤ) / 2 := by
  have quotient : points rule = ((weight rule : ℤ) : ℚ) / (2 : ℕ) := by
    rw [points]
    push_cast
    rfl
  rw [quotient, Rat.floor_intCast_div_natCast]
  rfl

theorem ceil_points (rule : String) : ⌈points rule⌉ = ((weight rule : ℤ) + 1) / 2 := by
  have opposite : -points rule = ((-weight rule : ℤ) : ℚ) / (2 : ℕ) := by
    rw [points]
    push_cast
    ring
  rw [← neg_inj, ← Int.floor_neg, opposite, Rat.floor_intCast_div_natCast]
  omega

/-! ### Scores -/

/-- What is left of a hundred points, or nothing. -/
theorem score_eq (vs : List Violation) : (score vs : ℤ) = max 0 (min 100 (balance vs)) := by
  rw [balance_eq, score, scoreAfter]
  omega

theorem score_le (vs : List Violation) : score vs ≤ 100 := by
  rw [score, scoreAfter]
  omega

theorem score_eq_hundred_iff : score vs = 100 ↔ cost vs ≤ 1 / 2 := by
  have few : cost vs ≤ 1 / 2 ↔ penalty vs ≤ 1 := by
    rw [cost_eq, div_le_div_iff_of_pos_right two_pos]
    exact Nat.cast_le_one
  rw [few, score, scoreAfter]
  omega

/-- One more violation takes its weight off the score, rounded one way or the other. -/
theorem score_drop (h : ws.Perm (v :: vs)) (left : 0 ≤ balance ws) :
    (score vs : ℤ) = score ws + ⌊points v.rule⌋ ∨ (score vs : ℤ) = score ws + ⌈points v.rule⌉ := by
  have more : penalty ws = weight v.rule + penalty vs := penalty_perm h
  rw [balance_eq] at left
  rw [floor_points, ceil_points, score, score, scoreAfter, scoreAfter]
  omega

/-- The score of any violations: a whole number from zero to a hundred, what is left of a hundred
points after all weights, a half rounded up. Their order makes no difference, more violations never
raise it, and one more takes off its weight, rounded up or down, unless less than nothing would be
left. It is a hundred for violations that cost half a point at most. -/
theorem score_of_costs (vs : List Violation) :
    (score vs : ℤ) = max 0 (min 100 ⌊100 - cost vs + 1 / 2⌋) ∧ score vs ≤ 100 ∧
    (∀ ws, ws.Perm vs → score ws = score vs) ∧
    (∀ ws, vs.Subperm ws → score ws ≤ score vs) ∧
    (∀ v ws, ws.Perm (v :: vs) →
      (⌊100 - cost ws + 1 / 2⌋ < 0 → score ws = 0) ∧
      (0 ≤ ⌊100 - cost ws + 1 / 2⌋ →
        ((score vs : ℤ) = score ws + ⌊points v.rule⌋ ∨
          (score vs : ℤ) = score ws + ⌈points v.rule⌉) ∧
        ∀ w : ℕ, points v.rule = w → score vs = score ws + w)) ∧
    (score vs = 100 ↔ cost vs ≤ 1 / 2) := by
  refine ⟨score_eq vs, score_le vs, ?_, ?_, ?_, score_eq_hundred_iff⟩
  · intro ws same
    rw [score, score, penalty_perm same]
  · rintro ws ⟨part, same, inside⟩
    exact score_anti (penalty_perm same ▸ penalty_le_of_sublist inside)
  · intro v ws one
    constructor
    · intro spent
      have eq := score_eq ws
      rw [balance, max_eq_left (min_le_of_right_le spent.le)] at eq
      exact_mod_cast eq
    · intro left
      have drop := score_drop one left
      refine ⟨drop, fun w whole => ?_⟩
      rw [whole, Int.floor_natCast, Int.ceil_natCast, or_self] at drop
      exact_mod_cast drop

end JsxAudit.Report
