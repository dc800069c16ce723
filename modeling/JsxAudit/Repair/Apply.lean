import JsxAudit.Repair.Edit

/-!
Applying fixes to one file.

The fixes are carried out from the end of the file to its beginning, and the text is parsed again
after each of them, so that the offsets of the fixes still to come stay right. A fix is skipped,
without a trace, if its text cannot be found, if its place is gone, or if the text would no longer
be a program.
-/

namespace JsxAudit.Repair

open Source Audit

/-- The order of fixes: by anchor, line and column, where no anchor counts as the beginning. -/
def orderKey (v : Violation) : Nat × Nat × Nat :=
  (v.anchor.getD 0, v.line, v.column)

/-- One key comes before another one or is the same. -/
def keyLe (a b : Nat × Nat × Nat) : Bool :=
  a.1 < b.1 || (a.1 = b.1 && (a.2.1 < b.2.1 || (a.2.1 = b.2.1 && a.2.2 ≤ b.2.2)))

/-- The violations that have a fix, the last place first; equal places keep their order. -/
def processingOrder (violations : List Violation) : List Violation :=
  (violations.filter (·.fix.isSome)).mergeSort fun a b => keyLe (orderKey b) (orderKey a)

/-- Splices have cut a character. -/
inductive ApplyError where
  | brokenText
  deriving DecidableEq, Repr

/-- A file, and the violations whose fixes made it what it is. -/
structure Progress where
  file : SourceFile
  applied : List Violation

/-- The file after the fix of one violation, if the fix can be carried out. -/
def fixOne? (parser : TreeParser) (f : SourceFile) (v : Violation) :
    Except ApplyError (Option SourceFile) :=
  match v.fix with
  | none => .ok none
  | some fix =>
    match Deferred.resolve fix.value with
    | .error _ | .ok none => .ok none
    | .ok (some value) =>
      match editFor v.rule fix.type f v value with
      | [] => .ok none
      | splices =>
        match Splice.spliced? f.bytes splices with
        | none => .error .brokenText
        | some text => .ok (SourceFile.parseWith parser f.path text)

/-- The progress after one more violation. -/
def advance (parser : TreeParser) (p : Progress) (v : Violation) : Except ApplyError Progress :=
  (fixOne? parser p.file v).map fun
    | some file => ⟨file, p.applied ++ [v]⟩
    | none => p

/-- Apply every fix that can be carried out. -/
def applyAll (parser : TreeParser) (f : SourceFile) (violations : List Violation) :
    Except ApplyError Progress :=
  (processingOrder violations).foldlM (advance parser) ⟨f, []⟩

/-- The text after all fixes that can be carried out, and the violations they removed. -/
def apply (parser : TreeParser) (f : SourceFile) (violations : List Violation) :
    Except ApplyError (String × List Violation) :=
  (applyAll parser f violations).map fun p => (p.file.text, p.applied)

end JsxAudit.Repair
