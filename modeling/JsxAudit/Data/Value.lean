import JsxAudit.Text.Quoted
import JsxAudit.Decimal.Shortest
import JsxAudit.Data.Keyed
import JsxAudit.Data.Fault
import JsxAudit.Text.Digit

/-!
Dynamic values: what a configuration file, a stored record or an answer of a service may hold.

Tables keep their fields in the order of first insertion. `isTruthy` says which values count as
given, `shown` is the form in which messages show a value, and `plain` is its text where a text is
expected.
-/

namespace JsxAudit.Data

inductive Value where
  | null
  | bool (b : Bool)
  | int (n : Int)
  | float (x : Float)
  | str (s : String)
  | list (items : List Value)
  | table (fields : List (String × Value))
  deriving Inhabited

/-- Fields of a table. -/
abbrev Fields := Keyed Value

namespace Value

/-- Null, false, zero and everything empty count as absent. -/
def isTruthy : Value → Bool
  | .null => false
  | .bool b => b
  | .int n => n != 0
  | .float x => x != 0.0
  | .str s => !s.isEmpty
  | .list items => !items.isEmpty
  | .table fields => !fields.isEmpty

/-- The field of a table; no other value has fields. -/
def field? (name : String) : Value → Option Value
  | .table fields => Keyed.get? fields name
  | _ => none

def asString? : Value → Option String
  | .str s => some s
  | _ => none

/-! ### Texts of values -/

mutual

/-- A value as messages show it: texts in quotes, brackets around lists and tables. -/
def shown : Value → String
  | .null => "None"
  | .bool true => "True"
  | .bool false => "False"
  | .int n => toString n
  | .float x => Decimal.shortestText x
  | .str s => Text.quoted s
  | .list items => "[" ++ ", ".intercalate (shownItems items) ++ "]"
  | .table fields => "\x7b" ++ ", ".intercalate (shownFields fields) ++ "\x7d"

def shownItems : List Value → List String
  | [] => []
  | v :: rest => shown v :: shownItems rest

def shownFields : List (String × Value) → List String
  | [] => []
  | (k, v) :: rest => (Text.quoted k ++ ": " ++ shown v) :: shownFields rest

end

/-- The text of a value: a text is its own, any other value is shown. -/
def plain : Value → String
  | .str s => s
  | v => v.shown

/-! ### Whole numbers -/

/-- The whole number that a value stands for. A truth value counts as zero or one, a fraction is
dropped, and a text may write a whole number. -/
def wholeNumber : Value → Except Fault Int
  | .bool b => .ok (if b then 1 else 0)
  | .int n => .ok n
  | .float x =>
    match Decimal.truncate? x with
    | some n => .ok n
    | none => .error (if x.isNaN then .badNumber else .tooLarge)
  | .str s =>
    match Text.readInteger? s with
    | some n => .ok n
    | none => .error .badNumber
  | .null | .list _ | .table _ => .error .wrongType

end Value

end JsxAudit.Data
