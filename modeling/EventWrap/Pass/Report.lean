import EventWrap.Location.Codec
import EventWrap.Pass.Metrics

/-!
# Reports of a pass

The units that a host took, the diagnostics and the metrics of a pass, as text for a reader and as
JSON.
-/

namespace EventWrap

/-- What a unit holds. -/
inductive UnitKind where
  | wrapper (sourceType : String) (mode : WrapperMode) (events : List String)
  | extensions (factories : Nat)
  | bootstrap
  deriving DecidableEq, Inhabited

structure GeneratedUnit where
  fileName : String
  kind : UnitKind
  bytes : Nat
  deriving DecidableEq, Inhabited

inductive PassOutcome where
  | completed
  | cancelled
  | failed (message : String)
  deriving DecidableEq, Inhabited

structure PassReport where
  outcome : PassOutcome
  units : List GeneratedUnit := []
  diagnostics : List Diagnostic := []
  metrics : Metrics := {}
  deriving DecidableEq, Inhabited

def UnitKind.isWrapper : UnitKind → Bool
  | .wrapper .. => true
  | _ => false

namespace PassReport

def isSuccess (r : PassReport) : Bool := r.outcome = .completed

def fileNames (r : PassReport) : List String := r.units.map (·.fileName)

def wrappers (r : PassReport) : List GeneratedUnit := r.units.filter (·.kind.isWrapper)

def warningCount (r : PassReport) : Nat := r.diagnostics.countP (·.severity = .warning)

/-- The report with the times that were measured around the pass. -/
def withTimes (total discovery : Duration) (r : PassReport) : PassReport :=
  { r with metrics := { r.metrics with timing :=
    { r.metrics.timing with totalTime := total, discoveryTime := discovery } } }

end PassReport

/-! ## Text -/

def PassOutcome.toText : PassOutcome → String
  | .completed => "Completed"
  | .cancelled => "Cancelled"
  | .failed message => "Failed: " ++ message

def GeneratedUnit.toText (u : GeneratedUnit) : String :=
  match u.kind with
  | .wrapper sourceType mode events =>
    "  " ++ u.fileName ++ " (" ++ mode.word ++ " " ++ sourceType ++ ", " ++ toString events.length ++ " events)\n"
  | .extensions factories => "  " ++ u.fileName ++ " (" ++ toString factories ++ " factory methods)\n"
  | .bootstrap => "  " ++ u.fileName ++ " (bootstrap)\n"

def Severity.reportWord : Severity → String
  | .info => "INFO"
  | .warning => "WARN"
  | .error => "ERROR"

def Diagnostic.reportLine (d : Diagnostic) : String :=
  "  [" ++ d.severity.reportWord ++ "] " ++ d.id ++ " " ++ d.location.toText ++ ": " ++ d.message ++ "\n"

namespace PassReport

/-- A part of the report with its heading, left out when it has no lines. -/
def headed (heading : String) (lines : List String) : String :=
  if lines.isEmpty then "" else "\n" ++ heading ++ ":\n" ++ String.join lines

def toText (passId : String) (r : PassReport) : String :=
  "Generation Report: " ++ passId ++ "\n" ++
  "Outcome: " ++ r.outcome.toText ++ "\n" ++
  "\nRequests:\n" ++
  "  Instance: " ++ toString r.metrics.requests.ofInstances ++ "\n" ++
  "  Static: " ++ toString r.metrics.requests.ofStatics ++ "\n" ++
  "  Duplicates: " ++ toString r.metrics.requests.duplicates ++ "\n" ++
  headed "Generated" (r.units.map (·.toText)) ++
  "\nMetrics:\n" ++
  "  Total Time: " ++ r.metrics.timing.totalTime.toText ++ "\n" ++
  "  Events Wrapped: " ++ toString r.metrics.output.eventsWrapped ++ "\n" ++
  "  Bytes Written: " ++ toString r.metrics.output.totalBytes ++ "\n" ++
  headed "Diagnostics" (r.diagnostics.map (·.reportLine))

end PassReport

/-! ## JSON -/

open Json

def Diagnostic.toJson (d : Diagnostic) : Json :=
  record [("id", text d.id), ("severity", text d.severity.word), ("message", text d.message),
    ("location", d.location.toJson), ("category", text d.category)]

/-- The fields that tell what a unit holds. -/
def UnitKind.fields : UnitKind → List (String × Json)
  | .wrapper sourceType mode events =>
    [("kind", text "wrapper"), ("source_type", text sourceType), ("mode", text mode.word),
      ("events", .arr (events.map text))]
  | .extensions factories => [("kind", text "extensions"), ("factories", nat factories)]
  | .bootstrap => [("kind", text "bootstrap")]

def GeneratedUnit.toJson (u : GeneratedUnit) : Json :=
  record (("file_name", text u.fileName) :: (u.kind.fields ++ [("bytes", nat u.bytes)]))

def PassOutcome.toJson : PassOutcome → Json
  | .completed => record [("status", text "completed")]
  | .cancelled => record [("status", text "cancelled")]
  | .failed message => record [("status", text "failed"), ("message", text message)]

namespace PassReport

def toJson (passId : String) (r : PassReport) : Json :=
  record [("pass_id", text passId), ("outcome", r.outcome.toJson), ("units", .arr (r.units.map (·.toJson))),
    ("diagnostics", .arr (r.diagnostics.map (·.toJson))), ("metrics", r.metrics.toJson)]

/-- The report as a JSON value with fields in order, `null` when a time needs more than 64 bits. -/
def toJsonValue (passId : String) (r : PassReport) : Json :=
  if r.metrics.timing.totalTime.nanoseconds < UInt64.size ∧ r.metrics.timing.discoveryTime.nanoseconds < UInt64.size then
    (r.toJson passId).sorted
  else .null

end PassReport

end EventWrap
