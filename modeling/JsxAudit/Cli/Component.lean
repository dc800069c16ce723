/-!
The parts of the program by the names under which they can be asked for, with their kinds.
-/

namespace JsxAudit.Cli

/-- Names of parts and their kinds. -/
def components : List (String × String) :=
  [("Console", "Console"), ("TelemetryPort", "ProjectTelemetry"),
    ("FileSystemGateway", "FileSystemGateway"), ("TreeSitterGateway", "TreeSitterGateway"),
    ("SourceFixerGateway", "SourceFixerGateway"), ("ImageSource", "ImageSourceResolver"),
    ("TextReporter", "TerminalScanReporter"), ("JsonReporter", "JsonScanReporter")]

/-- No part has the name. -/
structure UnknownComponent where
  name : String
  deriving DecidableEq, Repr

def UnknownComponent.message (e : UnknownComponent) : String :=
  "Dependency '" ++ e.name ++ "' not registered."

/-- The kind of a part. -/
def componentKind (name : String) : Except UnknownComponent String :=
  match components.lookup name with
  | some kind => .ok kind
  | none => .error ⟨name⟩

end JsxAudit.Cli
