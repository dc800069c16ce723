import JsxAudit.Audit.Violation
import JsxAudit.Decimal.Shortest
import JsxAudit.Report.Size

/-!
The score of a project: one hundred points less the weight of every violation.

Weights are whole or half points, so they are counted in half points. A score that falls on a half
goes up, and no score is below zero. Costs are shown with six digits at most.
-/

namespace JsxAudit.Report

open Audit Decimal

/-- Weights of rules in half points. -/
def weights : List (String × Nat) :=
  [("img-alt", 4), ("button-label", 4), ("link-label", 4), ("input-label", 6), ("html-lang", 10),
    ("next-metadata-title", 6), ("next-skip-nav", 6), ("next-link-no-nested-a", 4),
    ("no-positive-tabindex", 2), ("button-type", 2), ("next-image-sizes", 2),
    ("heading-order", 2), ("no-div-interactive", 2), ("emoji-alt", 1), ("link-noopener", 1)]

/-- The weight of a rule in half points; rules not listed weigh one point. -/
def weight (rule : String) : Nat :=
  (weights.lookup rule).getD 2

/-- How many digits of a cost are shown at most. -/
def shownDigits : Nat := 6

/-- A number of half points in points. More digits than can be shown are rounded, and numbers that
would need zeros for them are written with an exponent. -/
def pointsText (halves : Nat) : String :=
  let whole := toString (halves / 2)
  if whole.length < shownDigits then whole ++ if halves % 2 = 0 then "" else ".5"
  else
    let rounded := toString (roundDiv halves (2 * tenTo (whole.length - shownDigits)))
    -- A row of nines is rounded to one digit more.
    let exponent := whole.length - 1 + (rounded.length - shownDigits)
    if exponent < shownDigits then rounded
    else
      let digits := trimZeros rounded.toList
      let fraction := if digits.length ≤ 1 then [] else '.' :: digits.drop 1
      String.ofList (digits.take 1 ++ fraction) ++
        (if exponent < 10 then "e+0" else "e+") ++ toString exponent

/-- The weight of all violations in half points. -/
def penalty : List Violation → Nat
  | [] => 0
  | v :: rest => weight v.rule + penalty rest

/-- The score that is left after a penalty in half points. -/
def scoreAfter (halves : Nat) : Nat :=
  (201 - halves) / 2

def score (violations : List Violation) : Nat :=
  scoreAfter (penalty violations)

/-- How good a score is. -/
inductive Badge where
  | good | needsWork | poor
  deriving DecidableEq, Repr

def Badge.name : Badge → String
  | .good => "Good"
  | .needsWork => "Needs work"
  | .poor => "Poor"

def Badge.ofScore (score : Int) : Badge :=
  if 90 ≤ score then .good else if 70 ≤ score then .needsWork else .poor

end JsxAudit.Report
