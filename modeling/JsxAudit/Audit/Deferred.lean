import JsxAudit.Audit.Violation
import JsxAudit.Label.Icon
import JsxAudit.Label.LoopVariable

/-!
Texts of deferred fixes that need no service: from tables, from names in the source, or none.

The text for an image cannot be made up here. It stays a placeholder, which is never written.
-/

namespace JsxAudit.Audit.Deferred

open Label

/-- The ways to find a deferred text. -/
inductive Resolver where
  | imgAlt | iconLabel | inputLabel | pageTitle
  deriving DecidableEq, Repr

def Resolver.name : Resolver → String
  | .imgAlt => "img-alt"
  | .iconLabel => "icon-label"
  | .inputLabel => "input-label"
  | .pageTitle => "page-title"

def Resolver.ofName? : String → Option Resolver
  | "img-alt" => some .imgAlt
  | "icon-label" => some .iconLabel
  | "input-label" => some .inputLabel
  | "page-title" => some .pageTitle
  | _ => none

/-- Why a deferred text cannot be found. -/
inductive ResolveError where
  | unknownResolver (name : String)
  | unknownTerm (term : String)
  deriving DecidableEq, Repr

def ResolveError.message : ResolveError → String
  | .unknownResolver name => "No resolver registered for " ++ Text.quoted name
  | .unknownTerm term => term

/-- What stands for the text of an image. -/
def placeholder : String := "[AI-generated alt text placeholder]"

/-- Facts about the place of a fix, by name. -/
abbrev Params := List (String × String)

/-- A parameter that is given and not empty. -/
def given? (name : String) (params : Params) : Option String :=
  (params.lookup name).filter (· != "")

/-- A label for a control with an icon, or the name of the control. -/
def iconText (params : Params) : Except ResolveError String := do
  let locale := (params.lookup "locale").getD "en"
  let base ← match given? "icon" params with
    | some icon => pure (Label.iconLabel icon locale)
    | none =>
      let term := (params.lookup "term").getD "Button"
      match controlLabel? term locale with
      | some label => pure label
      | none => throw (.unknownTerm term)
  return match given? "variable" params with
    | some variable' => LoopVariable.wrap base variable'
    | none => base

/-- The words of a field's name. -/
def fieldWords (name : String) : String :=
  Text.capitalize (String.ofList ((splitCamel name.toList).map fun c =>
    if c == '_' || c == '-' then ' ' else c))

/-- A label for a form field: its placeholder, the words of its name, or its kind. -/
def inputText (params : Params) : String :=
  match given? "placeholder" params, given? "name" params with
  | some text, _ => text
  | none, some name => fieldWords name
  | none, none =>
    match (params.lookup "tag").getD "input" with
    | "select" => "Select option"
    | "textarea" => "Text input"
    | _ => "Input"

/-- A title for a page: the last segment of its route, or its component. -/
def titleText (params : Params) : String :=
  let segments := (Text.splitOn '/' ((params.lookup "route").getD "")).filter (· != "")
  match segments.getLast?.getD ((params.lookup "component").getD "") with
  | "" => "Page"
  | source => Text.capitalize source

/-- The text that a resolver finds from the parameters. -/
def Resolver.run (r : Resolver) (params : Params) : Except ResolveError String :=
  match r with
  | .imgAlt => .ok placeholder
  | .iconLabel => iconText params
  | .inputLabel => .ok (inputText params)
  | .pageTitle => .ok (titleText params)

/-- The text of a fix value. -/
def resolveValue : FixValue → Except ResolveError String
  | .literal text => .ok text
  | .deferred resolver params =>
    match Resolver.ofName? resolver with
    | some r => r.run params
    | none => .error (.unknownResolver resolver)

/-- The text to write for a value, none if it is only the placeholder. -/
def resolve (value : FixValue) : Except ResolveError (Option String) := do
  let text ← resolveValue value
  return if text = placeholder then none else some text

end JsxAudit.Audit.Deferred
