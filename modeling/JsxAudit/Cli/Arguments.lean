import JsxAudit.Config.Resolve
import JsxAudit.Storage.Disk
import JsxAudit.Text.Digit

/-!
The command line: commands, their options, and the words that are none.

An option with a value takes it from the same word after an equals sign, or from the next word,
whatever that looks like. Of an option that is given twice the last value counts. After two dashes
alone, every word is an argument.
-/

namespace JsxAudit.Cli

open Config

/-- The form of a report. -/
inductive Format where
  | text | json
  deriving DecidableEq, Repr

def Format.ofName? : String → Option Format
  | "text" => some .text
  | "json" => some .json
  | _ => none

/-- What the program is to do. -/
inductive Command where
  | help
  | scan (target : String) (flags : Flags) (format : String)
  | rules (target : String)
  | cacheStats (target : String)
  | cacheClear (target : String)

/-! ### Options -/

/-- An option of a command, with or without a value. -/
structure OptionKind where
  name : String
  takesValue : Bool
  deriving DecidableEq, Repr

/-- The words of a command sorted out. -/
structure Words where
  arguments : List String := []
  values : List (String × String) := []
  deriving DecidableEq, Repr

/-- The last value of an option. -/
def Words.value? (w : Words) (name : String) : Option String :=
  w.values.reverse.lookup name

def Words.has (w : Words) (name : String) : Bool :=
  (w.value? name).isSome

/-- A word that is an option: a dash and something behind it. -/
def isOption (word : String) : Bool :=
  match word.toList with
  | '-' :: _ :: _ => true
  | _ => false

/-- An option and the value after its equals sign. -/
def cutOption (word : String) : String × Option String :=
  let cs := word.toList
  (String.ofList (cs.takeWhile (· != '=')),
    match cs.dropWhile (· != '=') with
    | [] => none
    | _ :: value => some (String.ofList value))

/-- The words of a command, unless one of them is no option of it or lacks its value. -/
def sortWords (kinds : List OptionKind) : List String → Words → Option Words
  | [], w => some w
  | "--" :: rest, w => some { w with arguments := w.arguments ++ rest }
  | word :: rest, w =>
    if isOption word then
      match cutOption word, rest with
      | (name, value?), rest => do
        let kind ← kinds.find? (·.name = name)
        match kind.takesValue, value?, rest with
        | false, none, rest => sortWords kinds rest { w with values := w.values ++ [(name, "")] }
        | false, some _, _ => none
        | true, some value, rest =>
          sortWords kinds rest { w with values := w.values ++ [(name, value)] }
        | true, none, value :: rest =>
          sortWords kinds rest { w with values := w.values ++ [(name, value)] }
        | true, none, [] => none
    else sortWords kinds rest { w with arguments := w.arguments ++ [word] }

/-! ### Commands -/

def helpOption : OptionKind := ⟨"--help", false⟩

def scanOptions : List OptionKind :=
  [helpOption, ⟨"--fix", false⟩, ⟨"--no-ai", false⟩, ⟨"--provider", true⟩, ⟨"--model", true⟩,
    ⟨"--locale", true⟩, ⟨"--min-score", true⟩, ⟨"--format", true⟩]

/-- The one path among the arguments; the working directory if there is none. -/
def pathArgument? : List String → Option String
  | [] => some "."
  | [path] => some (Storage.Path.clean path)
  | _ => none

/-- The words of a scan. -/
def scanCommand? (w : Words) : Option Command := do
  if w.has "--help" then return .help
  let target ← pathArgument? w.arguments
  let minScore ← match w.value? "--min-score" with
    | none => pure none
    | some text => (Text.readInteger? text).map some
  let flags : Flags :=
    { fix := w.has "--fix", noAi := w.has "--no-ai", provider := w.value? "--provider"
      model := w.value? "--model", locale := w.value? "--locale", minScore }
  return .scan target flags ((w.value? "--format").getD "text")

/-- The words of a command that has nothing but a path. -/
def pathCommand? (command : String → Command) (w : Words) : Option Command :=
  if w.has "--help" then some .help else (pathArgument? w.arguments).map command

/-- The words behind the two dashes that may open a list of commands. -/
def commandWords : List String → List String
  | "--" :: rest => rest
  | words => words

/-- The command of the cache. -/
def cacheCommand? (words : List String) : Option Command :=
  match commandWords words with
  | "--help" :: _ => some .help
  | "stats" :: rest => (sortWords [helpOption] rest {}).bind (pathCommand? .cacheStats)
  | "clear" :: rest => (sortWords [helpOption] rest {}).bind (pathCommand? .cacheClear)
  | _ => none

/-- The command that the words give, if they give one. -/
def command? (words : List String) : Option Command :=
  match commandWords words with
  | "--help" :: _ => some .help
  | "scan" :: rest => (sortWords scanOptions rest {}).bind scanCommand?
  | "rules" :: rest => (sortWords [helpOption] rest {}).bind (pathCommand? .rules)
  | "cache" :: rest => cacheCommand? rest
  | _ => none

end JsxAudit.Cli
