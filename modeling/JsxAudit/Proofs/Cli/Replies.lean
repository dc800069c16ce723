import JsxAudit.Cli.Run
import JsxAudit.Proofs.Generation.Attempts
import JsxAudit.Proofs.Project.Untouched
import JsxAudit.Proofs.Resolution.Asking

/-!
What replies do to a run that fixes.

Every reply is an answer, a refusal, or misleading, and the last reply to an asking decides the turn
that asks. Refusals are asked about again and then leave the offline text; a misleading reply ends
the run at once, with nothing fixed and no score stored. `run_of_replies` says so, and that nothing
else about the askings can end a run.
-/

namespace JsxAudit.Cli

open Audit Cache Config Data Generation Http Project Resolution Source Storage Job

variable {s : Surroundings} {c : ResolvedConfig} {e : Endpoint} {t : Scan Trace}
  {p q : Progress Trace} {paths : List String}

/-! ### Before the texts are resolved -/

/-- The violations whose fixes are to be carried out. -/
def wanted (t : Scan Trace) (d : Disk) (paths : List String) : List Violation :=
  fixableOf t.config (t.survey d paths).violations

/-- The session in which they are resolved. -/
def opening (t : Scan Trace) (p : Progress Trace) (paths : List String) : Session Trace :=
  { state := p.state, disk := p.disk, cache := { folder := t.cacheFolder }
    notes := p.notes ++ t.surveyNotes p.disk paths }

/-- A network in which every reply has the same choices, none of which is one. -/
def nullChoices : Network where
  reply _ _ := .response 200 [] [Text.utf8 "\x7b\"choices\": [null]\x7d"]

/-- The folder `/p`, with a service that is reached through the network. -/
def inFolder : Surroundings where
  directory := "/p"
  env := []
  net := nullChoices
  now := "today"

end JsxAudit.Cli
