import JsxAudit.Report.Grouping
import JsxAudit.Report.Markup
import JsxAudit.Report.Result
import JsxAudit.Text.Path

/-!
The report as plain text, and the table of rules.
-/

namespace JsxAudit.Report

open Audit Generation

/-! ### Tables -/

/-- A text filled up with blanks to a width, at its right or at its left. -/
def pad (right : Bool) (width : Nat) (s : String) : String :=
  let blanks := String.ofList (List.replicate (width - s.length) ' ')
  if right then blanks ++ s else s ++ blanks

/-- The widest text in each column of some rows. -/
def columnWidths (rows : List (List String)) : List Nat :=
  rows.foldl (fun widths row =>
    (List.range (max widths.length row.length)).map fun i =>
      max (widths.getD i 0) ((row.getD i "").length)) []

/-- The cells of a row with a blank on both sides, filled up to the widths. -/
def rowCells (right : List Bool) (widths : List Nat) (row : List String) : List String :=
  (row.zip (widths.zip right)).map fun (cell, width, atRight) =>
    " " ++ pad atRight width cell ++ " "

/-- A line of one mark across a column. -/
def across (c : Char) (width : Nat) : String :=
  String.ofList (List.replicate width c)

/-! ### Sections -/

/-- The row of one rule: how often, which, what it says, and what it costs. -/
def ruleRow (rule : String) (count : Nat) : List String :=
  [toString count, rule, ((Rule.find? rule).map (·.description)).getD rule, costText rule count]

/-- The table of a section. -/
def sectionTable (rules : List (String × List Violation)) : List String :=
  let rows := rules.map fun (rule, violations) => ruleRow rule violations.length
  rows.map fun row =>
    String.join (rowCells [true, false, false, true] (columnWidths rows) row)

/-- The path seen from a directory, or the path itself if it does not lie below. -/
def displayPath (directory path : String) : String :=
  if path = "" then ""
  else
    let base := Text.normalSegments (Text.splitOn '/' directory)
    let target := Text.normalSegments (Text.splitOn '/'
      (if path.toList.head? = some '/' then path else directory ++ "/" ++ path))
    if base.isPrefixOf target then
      match target.drop base.length with
      | [] => "."
      | rest =>
        let relative := "/".intercalate rest
        if "..".toList.isPrefixOf relative.toList then path else relative
    else path

/-- The line of one violation. -/
def violationLine (directory : String) (v : Violation) : String :=
  "    " ++ Markup.plain (displayPath directory v.filePath ++ ":" ++ toString v.line ++ ":" ++
    toString v.column) ++ " " ++ Markup.plain v.message

def sectionLines (directory : String) (s : Section) (rules : List (String × List Violation)) :
    List String :=
  ["", s.title] ++ sectionTable rules ++
    rules.flatMap fun (_, violations) => violations.map (violationLine directory)

/-! ### The whole report -/

/-- What can be done, or what has been done. -/
def summaryLine (r : ScanResult) : String :=
  if r.fixedCount ≠ 0 then
    toString r.fixedCount ++ " fixed" ++
      if r.violations.isEmpty then "" else " · " ++ toString r.violations.length ++ " remaining"
  else
    toString r.fixableCount ++ " fixable · " ++ toString r.warningCount ++ " warnings" ++
      if r.fixableCount = 0 then "" else " · Run --fix to apply"

/-- A number with its sign. -/
def signed (n : Int) : String :=
  if 0 ≤ n then "+" ++ toString n else toString n

/-- How the score has changed, if there was one before. -/
def deltaLine? (r : ScanResult) : Option String := do
  let previous ← r.previousScore
  let delta ← r.scoreDelta
  return "Score: " ++ toString previous ++ " -> " ++ toString r.score ++ " (" ++ signed delta ++
    " pts)"

def tokenLine? (usage : Option TokenUsage) : Option String :=
  (usage.filter (·.total ≠ 0)).map fun u =>
    "Tokens used: " ++ toString u.total ++ " (" ++ toString u.input ++ " in, " ++
      toString u.output ++ " out)"

/-- The lines of the report, paths seen from a directory. -/
def reportLines (directory : String) (r : ScanResult) (usage : Option TokenUsage) : List String :=
  let rule := across '─' 189
  let nothing := r.violations.isEmpty && r.fixedCount = 0
  ["", rule ++ " Accessibility Report " ++ rule,
    "Scanned " ++ toString r.filesScanned ++ " file(s), " ++ toString r.elementsScanned ++
      " JSX element(s)"] ++
    (grouped r.violations).flatMap (fun (s, rules) => sectionLines directory s rules) ++
    [""] ++ (if nothing then ["✅ No accessibility issues found!"] else []) ++
    [summaryLine r] ++ (tokenLine? usage).toList ++
    ["Score: " ++ toString r.score ++ "/100 (" ++ (Badge.ofScore r.score).name ++ ")"] ++
    (deltaLine? r).toList

/-- Lines as they are printed, each with a line break after it. -/
def unlines (lines : List String) : String :=
  String.join (lines.map Markup.line)

def text (directory : String) (r : ScanResult) (usage : Option TokenUsage) : String :=
  unlines (reportLines directory r usage)

/-! ### The table of rules -/

/-- A line of cells between vertical marks. -/
def boxedRow (mark : String) (cells : List String) : String :=
  mark ++ mark.intercalate cells ++ mark

/-- A line that separates rows. -/
def boxedRule (left line joint right : Char) (widths : List Nat) : String :=
  String.singleton left ++
    (String.singleton joint).intercalate (widths.map fun w => across line (w + 2)) ++
    String.singleton right

/-- All rules with type, level, weight and description. -/
def rulesTable (level : Rule → RuleLevel) : String :=
  let header := ["Rule", "Type", "Level", "Weight", "Description"]
  let rows := Rule.all.map fun rule =>
    [rule.id, rule.type.name, (level rule).name, pointsText (weight rule.id), rule.description]
  let widths := columnWidths (header :: rows)
  let right := [false, false, false, true, false]
  let total := widths.foldl (fun n w => n + w + 3) 1
  let margin := total - "Rules".length
  let title := across ' ' (margin / 2) ++ "Rules" ++ across ' ' (margin - margin / 2)
  unlines ([title, boxedRule '┏' '━' '┳' '┓' widths,
    boxedRow "┃" (rowCells right widths header), boxedRule '┡' '━' '╇' '┩' widths] ++
    rows.map (fun row => boxedRow "│" (rowCells right widths row)) ++
    [boxedRule '└' '─' '┴' '┘' widths])

end JsxAudit.Report
