import EventWrap.Diagnostic
import EventWrap.Duration
import EventWrap.Wrapper.Mode

/-!
# Events of a pass

What listeners are told while a pass runs, and how each event is logged.
-/

namespace EventWrap

inductive PassEvent where
  | started (instanceRequests staticRequests : Nat)
  | deduplicated (typeName : String) (mode : WrapperMode)
  | wrapperGenerated (typeName : String) (mode : WrapperMode) (fileName : String) (events : Nat)
  | sourceAdded (hintName : String) (bytes : Nat)
  | diagnosticReported (diagnostic : Diagnostic)
  | typeFailed (typeName message : String)
  | cancelled (processed : Nat)
  | completed (sources diagnostics : Nat) (duration : Duration)
  deriving DecidableEq, Inhabited

/-- The name by which listeners filter events. -/
def PassEvent.typeName : PassEvent → String
  | .started .. => "pass_started"
  | .deduplicated .. => "request_deduplicated"
  | .wrapperGenerated .. => "wrapper_generated"
  | .sourceAdded .. => "source_added"
  | .diagnosticReported .. => "diagnostic_reported"
  | .typeFailed .. => "type_failed"
  | .cancelled .. => "pass_cancelled"
  | .completed .. => "pass_completed"

/-! ## Log records -/

inductive LogLevel where
  | trace | debug | info | warn | error
  deriving DecidableEq, Inhabited

def LogLevel.word : LogLevel → String
  | .trace => "TRACE"
  | .debug => "DEBUG"
  | .info => "INFO"
  | .warn => "WARN"
  | .error => "ERROR"

inductive LogValue where
  | text (value : String)
  | number (value : Nat)
  deriving DecidableEq, Inhabited

structure LogRecord where
  level : LogLevel
  fields : List (String × LogValue)
  deriving DecidableEq, Inhabited

def Severity.logLevel : Severity → LogLevel
  | .info => .info
  | .warning => .warn
  | .error => .error

namespace LogRecord

/-- A record about an event of some name, its message last. -/
def about (level : LogLevel) (event : String) (fields : List (String × LogValue)) (message : String) : LogRecord where
  level := level
  fields := ("event", .text event) :: (fields ++ [("message", .text message)])

end LogRecord

def PassEvent.logRecord (e : PassEvent) : LogRecord :=
  match e with
  | .started instanceRequests staticRequests =>
    .about .info e.typeName
      [("instance_requests", .number instanceRequests), ("static_requests", .number staticRequests)]
      "Generation pass started"
  | .deduplicated typeName mode =>
    .about .trace e.typeName [("type_name", .text typeName), ("mode", .text mode.word)] "Dropped repeated request"
  | .wrapperGenerated typeName mode fileName events =>
    .about .debug e.typeName
      [("type_name", .text typeName), ("mode", .text mode.word), ("file", .text fileName), ("events", .number events)]
      "Wrapper generated"
  | .sourceAdded hintName bytes =>
    .about .trace e.typeName [("hint", .text hintName), ("bytes", .number bytes)] "Source added"
  | .diagnosticReported diagnostic =>
    .about diagnostic.severity.logLevel "diagnostic" [("id", .text diagnostic.id)] diagnostic.message
  | .typeFailed typeName message => .about .warn e.typeName [("type_name", .text typeName)] message
  | .cancelled processed => .about .info e.typeName [("processed", .number processed)] "Pass cancelled"
  | .completed sources diagnostics duration =>
    .about .info e.typeName
      [("sources", .number sources), ("diagnostics", .number diagnostics),
        ("duration_ms", .number (duration.milliseconds % UInt64.size))]
      "Generation pass completed"

end EventWrap
