import JsxAudit.Audit.Violation
import JsxAudit.Config.Provider
import JsxAudit.Data.Fault
import JsxAudit.Text.Quoted

/-!
The configuration of a run: defaults, the values of a file, and flags, the later ones winning.

A value of the file counts only if it is given: null is skipped, and where a value is asked for,
everything empty falls back to the default. Tables merge one level deep.

Some faults are looked for and reported with a message. Others only show when a value is used as
something it is not, such as a text that should have fields; these end the program.
-/

namespace JsxAudit.Config

open Audit Data

/-! ### What can be wrong -/

inductive ConfigError where
  | unreadable (path : String)
  | unparsable (path : String)
  | notObject (path : String)
  | invalidSetting (rule shown : String)
  | invalidLevel (rule level : String)
  | unknownProvider (shown : String) (known : List String)
  | shape (fault : Data.Fault)
  deriving DecidableEq, Repr

/-- What a reader of a file says about its fault is left out of messages. -/
def detail : String := "<detail>"

def ConfigError.message : ConfigError → String
  | .unreadable path => "Cannot read " ++ path ++ ": " ++ detail
  | .unparsable path => "Cannot parse " ++ path ++ ": " ++ detail
  | .notObject path => path ++ " must contain a JSON object"
  | .invalidSetting rule shown =>
    "Invalid setting for rule " ++ Text.quoted rule ++ ": " ++ shown
  | .invalidLevel rule level =>
    "Invalid level " ++ Text.quoted level ++ " for rule " ++ Text.quoted rule ++
      "; expected fix, warn or off"
  | .unknownProvider shown known =>
    "Unknown provider " ++ shown ++ "; expected one of " ++ ", ".intercalate known
  | .shape _ => "a value has the wrong shape"

/-! ### Defaults -/

/-- Levels of the rules unless configured. -/
def defaultLevels : List (String × String) :=
  [("img-alt", "fix"), ("button-label", "fix"), ("link-label", "fix"), ("input-label", "fix"),
    ("html-lang", "fix"), ("emoji-alt", "fix"), ("no-positive-tabindex", "fix"),
    ("button-type", "fix"), ("link-noopener", "fix"), ("next-metadata-title", "warn"),
    ("next-image-sizes", "warn"), ("next-link-no-nested-a", "fix"), ("next-skip-nav", "warn"),
    ("heading-order", "warn"), ("no-div-interactive", "warn")]

/-- Options of the rules unless configured. -/
def defaultOptions (rule : String) : List (String × Bool) :=
  if rule = "button-type" then [("scanCustomComponents", false)]
  else if rule = "img-alt" then [("fillAlt", true)]
  else []

def defaultLevel (rule : String) : String :=
  (defaultLevels.lookup rule).getD "warn"

def defaultInclude : List String :=
  ["**/*.\x7btsx,jsx\x7d"]

def defaultExclude : List String :=
  ["**/*.test.*", "**/*.spec.*", "**/*.stories.*", "**/node_modules/**"]

def defaultLocale : String := "en"

def defaultCacheDir : String := ".a11y-cache"

def texts (ss : List String) : Value :=
  .list (ss.map .str)

/-- The configuration that a file is merged into. -/
def defaults : Fields :=
  [("locale", .str defaultLocale), ("cache", .str defaultCacheDir),
    ("scanner", .table [("include", texts defaultInclude), ("exclude", texts defaultExclude)]),
    ("rules", .table (defaultLevels.map fun (rule, level) => (rule, .str level)))]

/-! ### Rules -/

/-- The level and the options of one rule. -/
structure RuleConfig where
  level : RuleLevel
  options : List (String × Bool)
  deriving DecidableEq, Repr

/-- The value of an option, or what it is by default. -/
def RuleConfig.option (c : RuleConfig) (name : String) (default : Bool) : Bool :=
  (c.options.lookup name).getD default

def levelOf (rule name : String) : Except ConfigError RuleLevel :=
  match RuleLevel.ofName? name with
  | some level => .ok level
  | none => .error (.invalidLevel rule name)

/-- The setting of a rule: a level, or a table of a level and options. -/
def ruleConfig (rule : String) (raw : Option Value) : Except ConfigError RuleConfig :=
  let value := match raw with
    | none | some .null => Value.str (defaultLevel rule)
    | some value => value
  match value with
  | .str name => do return ⟨← levelOf rule name, defaultOptions rule⟩
  | .table fields => do
    let name := ((Keyed.get? fields "level").map Value.plain).getD (defaultLevel rule)
    let options := (fields.filter (·.1 ≠ "level")).foldl
      (fun options (key, option) => Keyed.set key option.isTruthy options) (defaultOptions rule)
    return ⟨← levelOf rule name, options⟩
  | other => .error (.invalidSetting rule other.shown)

/-! ### Merging -/

/-- One field of a file set on top of the fields so far. -/
def mergeField (fields : Fields) (key : String) (value : Value) : Fields :=
  match value, Keyed.get? fields key with
  | .null, _ => fields
  | .table new, some (.table old) => Keyed.set key (.table (Keyed.update old new)) fields
  | value, _ => Keyed.set key value fields

/-- The fields with those of a file on top. -/
def merge (base override : Fields) : Fields :=
  override.foldl (fun fields (key, value) => mergeField fields key value) base

/-! ### Resolution -/

/-- What the command line says. -/
structure Flags where
  fix : Bool := false
  noAi : Bool := false
  provider : Option String := none
  model : Option String := none
  locale : Option String := none
  minScore : Option Int := none

/-- The configuration of one run. -/
structure ResolvedConfig where
  provider : Option Provider
  model : String
  locale : String
  cacheDir : String
  included : List Value
  excluded : List Value
  rules : List (String × RuleConfig)
  fix : Bool
  noAi : Bool
  minScore : Option Int

namespace ResolvedConfig

variable (c : ResolvedConfig)

/-- The setting of a rule. -/
def rule (id : String) : RuleConfig :=
  match c.rules.lookup id with
  | some config => config
  | none => ⟨(RuleLevel.ofName? (defaultLevel id)).getD .warn, defaultOptions id⟩

/-- A rule runs unless it is off, or needs a service where none is wanted. -/
def isEnabled (id : String) (type : RuleType) : Bool :=
  (c.rule id).level ≠ .off && !(c.noAi && type = .ai)

/-- Texts are asked from a service. -/
def aiEnabled : Bool :=
  c.fix && !c.noAi && c.provider.isSome

end ResolvedConfig

/-- The value of a field if it is given. -/
def given? (fields : Fields) (key : String) : Option Value :=
  (Keyed.get? fields key).filter Value.isTruthy

/-- The service that a value names. -/
def providerOf (value : Value) : Except ConfigError Provider :=
  let unknown := ConfigError.unknownProvider value.shown (Provider.all.map Provider.name)
  match value with
  | .str name => match Provider.ofName? name with
    | some p => .ok p
    | none => .error unknown
  | .list _ | .table _ => .error (.shape .wrongType)
  | _ => .error unknown

/-- The service of a run: that of the flag, of the file, or of the environment. -/
def resolveProvider (flag : Option String) (merged : Fields) (env : Provider.Environment) :
    Except ConfigError (Option Provider) :=
  match ((flag.filter (· != "")).map Value.str).or (given? merged "provider") with
  | some value => (providerOf value).map some
  | none => .ok (Provider.detect? env)

/-- The table of settings of single rules. -/
def rawRules (merged : Fields) : Except ConfigError Fields :=
  match given? merged "rules" with
  | none => .ok []
  | some (.table fields) => .ok fields
  | some _ => .error (.shape .wrongType)

/-- The ids of the known rules, and those that the file adds. -/
def ruleIds (raw : Fields) : List String :=
  let known := defaultLevels.map Prod.fst
  known ++ (raw.map Prod.fst).filter (!known.contains ·)

/-- The settings of all rules. -/
def resolveRules (raw : Fields) : Except ConfigError (List (String × RuleConfig)) :=
  (ruleIds raw).mapM fun id => do return (id, ← ruleConfig id (Keyed.get? raw id))

/-- The items that a value holds: of a list, the characters of a text, the names of a table. -/
def itemsOf : Value → Except ConfigError (List Value)
  | .list items => .ok items
  | .str s => .ok (s.toList.map fun c => .str (String.singleton c))
  | .table fields => .ok (fields.map fun (k, _) => .str k)
  | _ => .error (.shape .wrongType)

/-- The patterns of the scanner under a name. -/
def patterns (merged : Fields) (key : String) (default : List String) :
    Except ConfigError (List Value) :=
  match given? merged "scanner" with
  | none => .ok (default.map .str)
  | some (.table scanner) =>
    match given? scanner key with
    | none => .ok (default.map .str)
    | some value => itemsOf value
  | some _ => .error (.shape .noFields)

/-- The text of a field, or of a flag that wins over it. -/
def textOf (flag : Option String) (merged : Fields) (key default : String) : String :=
  (flag.filter (· != "")).getD (((given? merged key).map Value.plain).getD default)

/-- The configuration of one run. -/
def resolve (file : Fields) (flags : Flags) (env : Provider.Environment) :
    Except ConfigError ResolvedConfig := do
  let merged := merge defaults file
  let provider ← resolveProvider flags.provider merged env
  let model := textOf flags.model merged "model"
    ((provider.map Provider.defaultModel).getD fallbackModel)
  let rules ← resolveRules (← rawRules merged)
  let included ← patterns merged "include" defaultInclude
  let excluded ← patterns merged "exclude" defaultExclude
  return { provider, model, rules, excluded
           locale := textOf flags.locale merged "locale" defaultLocale
           cacheDir := textOf none merged "cache" defaultCacheDir
           included
           fix := flags.fix, noAi := flags.noAi, minScore := flags.minScore }

end JsxAudit.Config
