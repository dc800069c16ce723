import JsxAudit.Cli.Run
import JsxAudit.Proofs.Config.Misuse
import JsxAudit.Proofs.Data.JsonRoundTrip
import JsxAudit.Proofs.Storage.Files

/-!
How the program ends if there is no configuration to work with.

Every command that needs a configuration resolves one before it does anything else, so an error of
the configuration leaves the disk as it is and asks nothing of any service. Errors with a message
end the program with that message and status 1. Those of a misused value end it in the fault
itself: `config_ends` says which values these are.
-/

namespace JsxAudit.Cli

open Config Data Project Storage

variable {s : Surroundings} {d : Disk} {words : List String} {command : Command}
  {target format : String} {flags : Flags} {env : Provider.Environment} {e : ConfigError}

/-- The path and the flags of the configuration that a command needs. -/
def Command.needs? : Command → Option (String × Flags)
  | .help => none
  | .scan target flags format => (Format.ofName? format).map fun _ => (target, flags)
  | .rules target | .cacheStats target | .cacheClear target => some (target, {})

/-- What applies to a path, resolved. -/
def configured (s : Surroundings) (d : Disk) (target : String) (flags : Flags)
    (env : Provider.Environment) : Except ConfigError ResolvedConfig :=
  configFor d s.directory target >>= fun file => resolve file flags env

/-- How an error of the configuration ends the program. -/
def endingAt : ConfigError → Ending
  | .shape fault => .fault (.inl fault)
  | _ => .status 1

/-- What is said about an error of the configuration: nothing if it is a fault. -/
def notesAt : ConfigError → List Report.Note
  | .shape _ => []
  | e => [.error e.message]

/-- The program has ended at an error of the configuration, and has done nothing else. -/
structure Outcome.EndsAt (o : Outcome) (e : ConfigError) (d : Disk) : Prop where
  ending : o.ending = endingAt e
  notes : o.notes = notesAt e
  out : o.out = ""
  disk : o.disk = d
  trace : o.trace = {}

theorem failed_config (e : ConfigError) (o : Outcome) :
    failed (.config e) o = { o with ending := endingAt e, notes := o.notes ++ notesAt e } := by
  cases e with
  | shape fault => simp [failed, RunError.asFault?, endingAt, notesAt]
  | _ => rfl

theorem endsAt_failed (e : ConfigError) (greeting : Bool) (d : Disk) :
    (failed (.config e) { ending := .status 0, greeting, disk := d }).EndsAt e d := by
  rw [failed_config]
  exact ⟨rfl, rfl, rfl, rfl, rfl⟩

theorem configure_of_error (henv : environmentFor d s.directory target s.env = .ok env)
    (herror : configured s d target flags env = .error e) :
    configure s d target flags = .error (.config e) := by
  unfold configured at herror
  unfold configure
  rw [henv]
  dsimp only
  rw [herror]

theorem endsAt_withConfig {rest : ResolvedConfig → Outcome}
    (henv : environmentFor d s.directory target s.env = .ok env)
    (herror : configured s d target {} env = .error e) :
    (withConfig s target d rest).EndsAt e d := by
  unfold withConfig
  rw [configure_of_error henv herror]
  exact endsAt_failed e false d

theorem endsAt_scan (hformat : (Format.ofName? format).isSome)
    (henv : environmentFor d s.directory target s.env = .ok env)
    (herror : configured s d target flags env = .error e) :
    (scan s target flags format d).EndsAt e d := by
  obtain ⟨form, hform⟩ := Option.isSome_iff_exists.mp hformat
  unfold scan
  simp only [hform, configure_of_error henv herror]
  exact endsAt_failed e true d

theorem run_endsAt (hcommand : command? words = some command)
    (hneeds : command.needs? = some (target, flags))
    (henv : environmentFor d s.directory target s.env = .ok env)
    (herror : configured s d target flags env = .error e) : (run s words d).EndsAt e d := by
  unfold run
  rw [hcommand]
  cases command with
  | help => cases hneeds
  | scan target' flags' format =>
    obtain ⟨form, hform, same⟩ := Option.map_eq_some_iff.mp hneeds
    cases same
    exact endsAt_scan (by simp [hform]) henv herror
  | rules target' =>
    cases hneeds
    exact endsAt_withConfig henv herror
  | cacheStats target' =>
    cases hneeds
    exact endsAt_withConfig henv herror
  | cacheClear target' =>
    cases hneeds
    exact endsAt_withConfig henv herror

/-- A configuration comes out of sound values only, and every other file ends in a message or, if a
value is misused, in a fault, whatever the environment is. On the command line a message goes with
status 1, and a fault escapes; nothing is printed or written. -/
theorem config_ends (file : Fields) (flags : Flags) (env : Provider.Environment) :
    Judged (resolve file flags env) (Sound flags (merge defaults file))
      (Misused flags (merge defaults file)) ∧
    ∀ (s : Surroundings) (words : List String) (d : Disk) (command : Command) (target : String)
      (e : ConfigError), command? words = some command → command.needs? = some (target, flags) →
      environmentFor d s.directory target s.env = .ok env →
      configured s d target flags env = .error e → (run s words d).EndsAt e d :=
  ⟨resolve_judged file flags env, fun _ _ _ _ _ _ hcommand hneeds henv herror =>
    run_endsAt hcommand hneeds henv herror⟩

/-- A text in the place of the scanner is misused, and nothing is said about it. -/
theorem config_ends_text_for_scanner :
    let file : Fields := [("scanner", .str "x")]
    let d : Disk := (Disk.mk [] Disk.inOrder_nil []).put "/a11y.config.json"
      (.file (Text.utf8 (Json.write .ascii (.table file))))
    let s : Surroundings :=
      { directory := "/", env := [], net := { reply := fun _ _ => .failed "" }, now := "" }
    Misused {} (merge defaults file) .noFields ∧
      (run s ["rules"] d).EndsAt (.shape .noFields) d := by
  intro file d s
  obtain ⟨judged, ends⟩ := config_ends file {} []
  have fault : resolve file {} [] = .error (.shape .noFields) := rfl
  refine ⟨(judged.faults_iff .noFields).mp fault, ?_⟩
  have found : Path.upward (startFolder d "/" ".") = ["/"] ∧ d.has (Path.join "/" jsonName) = true ∧
      d.readText? (Path.join "/" jsonName) = some (Json.write .ascii (.table file)) ∧
      (environmentFor d "/" "." []).toOption = some [] := by
    decide +kernel
  obtain ⟨folders, has, text, env⟩ := found
  have plain : Json.Plain (.table file) := by
    refine .table (fun field mem => ?_) (by decide)
    obtain rfl := List.mem_singleton.mp mem
    exact .str "x"
  have read : configFor d "/" "." = .ok file := by
    simp only [configFor, folders, configAmong, has, readJsonConfig, text, Option.bind_some,
      Json.read?_write plain, if_true]
  refine ends s ["rules"] d (.rules ".") "." _ rfl rfl (eq_ok_of_toOption env) ?_
  unfold configured
  rw [read, ok_bind, fault]

end JsxAudit.Cli
