import JsxAudit.Asset.Load
import JsxAudit.Cli.Arguments
import JsxAudit.Project.Scan
import JsxAudit.Project.Settings
import JsxAudit.Report.Size
import JsxAudit.Report.Terminal

/-!
Carrying out commands: what is printed, how the program ends, and what the disk holds then.
-/

namespace JsxAudit.Cli

open Config Data Generation Http Project Report Storage

/-- What a command is carried out in. -/
structure Surroundings where
  directory : String
  env : Provider.Environment
  net : Network
  now : String
  parser : Source.TreeParser := Syntax.parse
  /-- For how many levels of brackets there is room inside the outermost ones of a document. -/
  room : Nat := Json.usualRoom

/-- How the program ends: with a status, or with a fault. -/
inductive Ending where
  | status (code : Nat)
  | fault (f : Fault ⊕ DiskError)

/-- What is left when the program has ended. -/
structure Outcome where
  ending : Ending
  out : String := ""
  notes : List Note := []
  /-- The notes begin with the name of the program. -/
  greeting : Bool := false
  disk : Disk
  trace : Trace := {}

/-! ### Printing -/

def title : String := "next-a11y accessibility scan"

/-- A note as it is printed. -/
def noteLine (n : Note) : String :=
  match n.kind with
  | .step => "› " ++ Markup.plain n.text
  | .warning => "⚠ " ++ Markup.plain n.text
  | .error => "✖ " ++ Markup.plain n.text

/-- What is printed besides reports. -/
def Outcome.err (o : Outcome) : String :=
  unlines ((if o.greeting then [title] else []) ++ o.notes.map noteLine)

/-! ### Parts of commands -/

/-- The configuration of a path, and the environment with the variables of files. -/
def configure (s : Surroundings) (d : Disk) (target : String) (flags : Flags) :
    Except RunError (ResolvedConfig × Provider.Environment) :=
  match environmentFor d s.directory target s.env with
  | .error f => .error (.fault f)
  | .ok env =>
    match configFor d s.directory target >>= fun fields => resolve fields flags env with
    | .error e => .error (.config e)
    | .ok config => .ok (config, env)

/-- The folder of the cache, as seen from the root of the project. -/
def cacheFolder (s : Surroundings) (d : Disk) (target : String) (c : ResolvedConfig) : String :=
  Path.join (rootOf d s.directory target) c.cacheDir

/-- What texts and images come from if they come from an endpoint. -/
def servicesOf (s : Surroundings) (c : ResolvedConfig) (e : Endpoint) :
    Resolution.Services Trace :=
  { model := e.model
    write := e.write s.net defaultRetries
    image := fun disk element source t =>
      Asset.load { disk, net := s.net, directory := s.directory } element source t
    locale := c.locale
    now := s.now }

/-- What texts are asked from in a run, and what is said if there is nothing. -/
def servicesFor (s : Surroundings) (c : ResolvedConfig) (env : Provider.Environment) :
    Except ServiceError (Option (Resolution.Services Trace) × List Note) :=
  if c.aiEnabled then
    (endpointOf c env).map fun e => (some (servicesOf s c e), [])
  else if c.fix && !c.noAi then
    .ok (none, [.warning "No AI provider configured; AI fixes use offline fallbacks"])
  else .ok (none, [])

/-! ### Scanning -/

/-- A failure as the end of the program: a message, or the fault. -/
def failed (e : RunError) (o : Outcome) : Outcome :=
  match e.asFault? with
  | some f => { o with ending := .fault f }
  | none => { o with ending := .status 1, notes := o.notes ++ [.error e.message] }

/-- The report of a run. -/
def reportOf (s : Surroundings) (format : Format) (r : ScanResult) (usage : Option TokenUsage) :
    String :=
  match format with
  | .json => Markup.withEmoji (r.json usage) ++ "\n"
  | .text => text s.directory r usage

/-- The score is not what is asked for at least. -/
def belowMinimum? (c : ResolvedConfig) (score : Int) : Option Note :=
  (c.minScore.filter (score < ·)).map fun least =>
    .error ("Score " ++ toString score ++ " is below minimum threshold " ++ toString least)

/-- Carry out a run and report it. -/
def runScan (s : Surroundings) (format : Format) (t : Scan Trace) (notes : List Note) (d : Disk) :
    Outcome :=
  let (outcome, p) := t.run.run { disk := d, state := {}, notes }
  let ended : Outcome :=
    { ending := .status 0, greeting := true, notes := p.notes, disk := p.disk, trace := p.state }
  match outcome with
  | .error e => failed e ended
  | .ok (r, usage) =>
    let out := reportOf s format r (t.services.map fun _ => usage)
    match belowMinimum? t.config r.score with
    | none => { ended with out }
    | some note => { ended with ending := .status 1, out, notes := p.notes ++ [note] }

/-- Scan a path, and fix what is found if the flags say so. -/
def scan (s : Surroundings) (target : String) (flags : Flags) (format : String) (d : Disk) :
    Outcome :=
  match Format.ofName? format with
  | none =>
    { ending := .status 1, disk := d
      notes := [.error ("Unknown format " ++ Text.quoted format ++ "; expected text or json")] }
  | some format =>
    let started : Outcome := { ending := .status 0, greeting := true, disk := d }
    match configure s d target flags with
    | .error e => failed e started
    | .ok (config, env) =>
      match servicesFor s config env with
      | .error e => failed (.service e) started
      | .ok (services, notes) =>
        runScan s format
          { parser := s.parser, directory := s.directory, target, config, services, now := s.now
            cacheFolder := cacheFolder s d target config, room := s.room } notes d

/-! ### Other commands -/

/-- The configuration of a path handed on, or the failure. -/
def withConfig (s : Surroundings) (target : String) (d : Disk)
    (rest : ResolvedConfig → Outcome) : Outcome :=
  match configure s d target {} with
  | .error e => failed e { ending := .status 0, disk := d }
  | .ok (config, _) => rest config

/-- The table of rules with their levels. -/
def listRules (s : Surroundings) (target : String) (d : Disk) : Outcome :=
  withConfig s target d fun config =>
    { ending := .status 0, disk := d, out := rulesTable fun rule => (config.rule rule.id).level }

/-- The folder of the cache, and how much it holds. -/
def cacheStats (s : Surroundings) (target : String) (d : Disk) : Outcome :=
  withConfig s target d fun config =>
    let folder := cacheFolder s d target config
    let cache : Cache.ResultCache := { folder }
    { ending := .status 0, disk := d
      out := unlines [Markup.tagged ("Cache: " ++ folder), "Entries: " ++ toString (cache.count d),
        "Size: " ++ sizeText (cache.fileSize d)] }

/-- Remove what the cache holds. -/
def cacheClear (s : Surroundings) (target : String) (d : Disk) : Outcome :=
  withConfig s target d fun config =>
    let folder := cacheFolder s d target config
    match ({ folder } : Cache.ResultCache).clear d with
    | .error e => { ending := .fault (.inr e), disk := d }
    | .ok (_, disk) =>
      { ending := .status 0, disk, out := unlines [Markup.tagged ("Cache cleared: " ++ folder)] }

/-- Carry out the command that the words give. -/
def run (s : Surroundings) (words : List String) (d : Disk) : Outcome :=
  match command? words with
  | none => { ending := .status 2, disk := d }
  | some .help => { ending := .status 0, disk := d }
  | some (.scan target flags format) => scan s target flags format d
  | some (.rules target) => listRules s target d
  | some (.cacheStats target) => cacheStats s target d
  | some (.cacheClear target) => cacheClear s target d

end JsxAudit.Cli
