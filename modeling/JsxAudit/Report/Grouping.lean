import JsxAudit.Report.Score
import JsxAudit.Rule.Registry

/-!
Sections of the report: every violation stands in one section, under its rule.
-/

namespace JsxAudit.Report

open Audit

inductive Section where
  | ai | auto | next | warning
  deriving DecidableEq, Repr

namespace Section

/-- The sections in the order in which they are shown. -/
def all : List Section :=
  [.ai, .auto, .next, .warning]

def title : Section → String
  | .ai => "AI fixes available"
  | .auto => "Auto fixes"
  | .next => "Next.js-specific"
  | .warning => "Warnings (manual review needed)"

/-- The section of a violation: that of the framework, that of violations without a fix, or one by
the origin of the fix. -/
def of (v : Violation) : Section :=
  if "next-".toList.isPrefixOf v.rule.toList then .next
  else if v.fix.isNone then .warning
  else if Rule.isAi v.rule then .ai
  else .auto

end Section

/-- Values in the order of their first occurrence. -/
def firstOccurrences : List String → List String
  | [] => []
  | x :: rest => x :: (firstOccurrences rest).filter (· != x)

/-- The violations by rule, in the order in which the rules first occur. -/
def byRule (violations : List Violation) : List (String × List Violation) :=
  (firstOccurrences (violations.map (·.rule))).map fun rule =>
    (rule, violations.filter (·.rule = rule))

/-- The sections that are not empty, with their violations by rule. -/
def grouped (violations : List Violation) : List (Section × List (String × List Violation)) :=
  (Section.all.map fun s => (s, byRule (violations.filter fun v => Section.of v = s))).filter
    fun (_, rules) => !rules.isEmpty

/-- What a number of violations of a rule costs. -/
def costText (rule : String) (count : Nat) : String :=
  "-" ++ pointsText (weight rule * count) ++ " pts"

end JsxAudit.Report
