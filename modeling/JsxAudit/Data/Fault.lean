/-!
Faults of data: a value is used as something it is not.

Nobody looks for these faults before they happen, and nothing is reported about them but their
kind. They end whatever was going on.
-/

namespace JsxAudit.Data

inductive Fault where
  /-- Fields are asked of a value that has none. -/
  | noFields
  /-- A value of the wrong type is taken for a name, a number, a list or a table. -/
  | wrongType
  /-- A text, or what is not a number, is taken for a whole number. -/
  | badNumber
  /-- An infinite number is taken for a whole number. -/
  | tooLarge
  /-- A name is looked up where it is not. -/
  | missingName
  /-- Bytes are taken for a text. -/
  | badText
  /-- A value depends on itself, or is nested too deeply. -/
  | endless
  deriving DecidableEq, Repr

end JsxAudit.Data
