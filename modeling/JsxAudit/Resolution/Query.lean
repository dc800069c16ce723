import JsxAudit.Audit.Deferred
import JsxAudit.Cache.Store
import JsxAudit.Generation.Prompt
import JsxAudit.Generation.Request
import JsxAudit.Label.AltText
import JsxAudit.Source.PageContext

/-!
What a deferred text is looked up under, and what is asked for it.

A query has a key in the cache, possibly a text that is known without asking, and a request for
the case that neither helps. The key tells apart whatever the request depends on.
-/

namespace JsxAudit.Resolution

open Audit Cache Generation Source

/-! ### Which fixes are resolved -/

/-- The kinds of texts that services write. -/
inductive Subject where
  | image | label | title
  deriving DecidableEq, Repr

/-- What a rule needs a text for, if a service may write it. -/
def subjectOf? (rule : String) : Option Subject :=
  if rule = "img-alt" then some .image
  else if rule = "next-metadata-title" then some .title
  else if rule = "button-label" ∨ rule = "link-label" ∨ rule = "input-label" then some .label
  else none

/-- Rules for which the names of icons have ready labels. -/
def usesIconLabels (rule : String) : Bool :=
  rule = "button-label" || rule = "link-label"

/-- A violation whose text is deferred, and the parameters that come with it. -/
def pending? (v : Violation) : Option (Subject × Fix × Deferred.Params) := do
  let subject ← subjectOf? v.rule
  let fix ← v.fix
  match fix.value with
  | .literal _ => none
  | .deferred _ params => some (subject, fix, params)

def needsResolution (v : Violation) : Bool :=
  (pending? v).isSome

/-! ### Keys -/

/-- Parts of a key with colons between them. -/
def keyText (parts : List String) : String :=
  ":".intercalate parts

/-- A text that is given and not empty, or the word for what is not known. -/
def orUnknown (s : Option String) : String :=
  (s.filter (· != "")).getD "unknown"

/-! ### Queries -/

structure Query where
  key : String
  known : Option String := none
  request : TextRequest

/-- The text of an image that cannot be looked at. -/
def blindImageQuery (v : Violation) (context : PageContext) (locale : String)
    (source : Option String) : Query :=
  { key := keyOfText (keyText ["img-alt", orUnknown source, v.element, context.component, locale])
    request := { system := imageInstructions
                 prompt := blindImagePrompt context locale (orUnknown source) } }

/-- The text of an image, whatever place it is shown in. -/
def imageQuery (context : PageContext) (locale : String) (image : List UInt8) : Query :=
  { key := keyOf (image ++ Text.utf8 (":" ++ locale))
    request := { system := imageInstructions, prompt := imagePrompt context locale
                 image := some image } }

/-- The label of a control. Icons on buttons and links may have one ready. -/
def labelQuery (v : Violation) (context : PageContext) (locale : String) (icon : Option String) :
    Query :=
  { key := keyOfText (keyText [v.rule, orUnknown icon, v.element, context.component, locale])
    known := if usesIconLabels v.rule then
        ((icon.filter (· != "")).bind fun name => Label.curatedLabel? name locale).filter (· != "")
      else none
    request := { system := labelInstructions
                 prompt := labelPrompt v.rule v.element context locale icon } }

/-- The title of a page. -/
def titleQuery (context : PageContext) (locale : String) : Query :=
  { key := keyOfText (keyText ["next-metadata-title", context.component, context.route.getD "",
      "|".intercalate context.headings, locale])
    request := { system := titleInstructions, prompt := titlePrompt context locale } }

/-! ### Without a service -/

/-- The text that a fix has for want of a generated one: words of the file's name for an image, and
what can be made of the parameters for anything else. -/
def offlineText (subject : Subject) (v : Violation) (fix : Fix) (f : SourceFile) :
    Except Data.Fault (Option String) :=
  match subject with
  | .image => .ok do
    let e ← (v.anchor).bind (f.elementAt? ·)
    let source ← (e.attribute? "src").bind (·.stringValue?)
    Label.filenameAlt source
  | _ =>
    match Deferred.resolve fix.value with
    | .ok text => .ok (text.filter (· != ""))
    | .error _ => .error .missingName

/-- The fix with its offline text, or none if there is no such text. -/
def offlineFix (subject : Subject) (v : Violation) (fix : Fix) (f : SourceFile) :
    Except Data.Fault (Option Fix) :=
  (offlineText subject v fix f).map fun text => text.map fix.withText

/-- A label is put in front of the loop variable that comes with it. -/
def finished (subject : Subject) (params : Deferred.Params) (text : String) : String :=
  match subject, Deferred.given? "variable" params with
  | .label, some variable' => Label.LoopVariable.wrap text variable'
  | _, _ => text

end JsxAudit.Resolution
