import JsxAudit.Text.Casing
import JsxAudit.Text.Digit
import JsxAudit.Text.Path

/-!
Alternative texts of images: how much a text says, and a text made from a file name.

A text is meaningless if it is a bare word such as `image`, a camera's file name, a number, or ends
like an image file. Comparisons ignore case. A pattern that must reach the end of the text may
leave out a final line break.
-/

namespace JsxAudit.Label

inductive AltClass where
  | missing | decorative | dynamic | meaningless | valid
  deriving DecidableEq, Repr

def AltClass.name : AltClass → String
  | .missing => "missing"
  | .decorative => "decorative"
  | .dynamic => "dynamic"
  | .meaningless => "meaningless"
  | .valid => "valid"

/-! ### Meaningless texts -/

/-- Words that say nothing about an image. -/
def genericWords : List String :=
  ["image", "photo", "picture", "img", "banner", "hero", "thumbnail", "untitled", "placeholder",
    "screenshot"]

/-- Suffixes of image files. -/
def imageSuffixes : List String :=
  [".png", ".jpg", ".jpeg", ".webp", ".gif", ".svg", ".avif"]

/-- Nothing is left but perhaps a line break. -/
def atEnd : List Char → Bool
  | [] => true
  | ['\n'] => true
  | _ => false

/-- The whole text is the word. -/
def isWord (word : String) (cs : List Char) : Bool :=
  (Text.dropLiteral word.toList cs).any atEnd

def startsWithDigit (cs : List Char) : Bool :=
  cs.head?.any Text.isDecimalDigit

/-- A camera's counter: its mark and a digit, with an optional underscore if so said. -/
def isCameraName (cs : List Char) : Bool :=
  (Text.dropLiteral "IMG_".toList cs).any startsWithDigit ||
    (Text.dropLiteral "DSC".toList cs).any (fun rest =>
      startsWithDigit rest || match rest with
        | '_' :: more => startsWithDigit more
        | _ => false) ||
    (Text.dropLiteral "DCIM".toList cs).isSome

def isNumber (cs : List Char) : Bool :=
  startsWithDigit cs && atEnd (cs.dropWhile Text.isDecimalDigit)

/-- The rest of the text behind an image suffix that ends it; the suffix is cut out. -/
def cutSuffix? : List Char → Option (List Char)
  | [] => none
  | c :: rest =>
    match imageSuffixes.findSome? fun suffix =>
      (Text.dropLiteral suffix.toList (c :: rest)).filter atEnd with
    | some after => some after
    | none => (cutSuffix? rest).map (c :: ·)

def isMeaninglessChars (cs : List Char) : Bool :=
  genericWords.any (isWord · cs) || isCameraName cs || isNumber cs || (cutSuffix? cs).isSome

def isMeaningless (text : String) : Bool :=
  isMeaninglessChars text.toList

/-! ### Classification -/

/-- What an alternative text is worth: none given, an empty one, an expression, or a text. -/
def classify (value : Option String) (isExpression : Bool) : AltClass :=
  match value with
  | none => .missing
  | some text =>
    if text = "" then .decorative
    else if isExpression then .dynamic
    else
      let trimmed := Text.trim text
      if isMeaningless trimmed then .meaningless
      else match Text.words trimmed with
        | [word] => if isMeaningless word then .meaningless else .valid
        | _ => .valid

/-! ### File names -/

/-- The path ends like an image file. -/
def isImagePath (path : String) : Bool :=
  let lowered := Text.lower path
  imageSuffixes.any (Text.endsWith · lowered)

/-- The part of a text before the first of a mark. -/
def before (mark : Char) (s : String) : String :=
  String.ofList (s.toList.takeWhile (· != mark))

/-- A text from the name of an image file: its words with a capital each, and the word `image`. -/
def filenameAlt (source : String) : Option String :=
  if source = "" then none
  else
    let name := (Text.pathName (Text.withSlashes (before '#' (before '?' source)))).toList
    let stem := (cutSuffix? name).getD name
    let spaced := stem.map fun c => if c == '-' || c == '_' then ' ' else c
    match Text.words (String.ofList spaced) with
    | [] => none
    | words => some (" ".intercalate (words.map Text.capitalize) ++ " image")

end JsxAudit.Label
