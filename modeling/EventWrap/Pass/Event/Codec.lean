import EventWrap.Json.Access
import EventWrap.Location.Codec
import EventWrap.Pass.Event
import EventWrap.Pass.Report
import EventWrap.Program.Codec

/-!
# Events of a pass as JSON

Written, an event tells its type and its data, a diagnostic by its text and no time spent; read, it
may leave out what stands for zero or nothing, and holds a diagnostic in full.
-/

namespace EventWrap

open Json

/-! ## Modes and diagnostics -/

/-- The mode that a field tells; instance when it does not say otherwise. -/
def WrapperMode.read (j : Json) : WrapperMode := if j.textOf "mode" = "static" then .ofStatics else .ofInstance

def Severity.read (j : Json) : Severity :=
  match j.textOf "severity" with
  | "info" => .info
  | "error" => .error
  | _ => .warning

/-- A known kind by its name, or a kind in full. -/
def DiagnosticKind.read (j : Json) : DiagnosticKind :=
  match j.asText? with
  | some "EVENTS_NOT_FOUND" => eventsNotFound
  | some "GENERATION_FAILED" => generationFailed
  | some "OUTPUT_CONFLICT" => outputConflict
  | _ => ⟨j.textOf "id", j.textOf "title", j.textOf "message_format", j.textOf "category", Severity.read j⟩

/-- A diagnostic of a kind with its arguments, or a diagnostic in full. -/
def Diagnostic.read (j : Json) : Diagnostic :=
  match j.given? "descriptor" with
  | some kind => ofKind (DiagnosticKind.read kind) (Program.readLocation j) (j.textsOf "args")
  | none => ⟨j.textOf "id", Severity.read j, j.textOf "message", Program.readLocation j, j.textOf "category"⟩

/-! ## Events -/

namespace PassEvent

def read (j : Json) : PassEvent :=
  match j.textOf "type" with
  | "pass_started" => .started (j.natOf "instance_requests" 0) (j.natOf "static_requests" 0)
  | "request_deduplicated" => .deduplicated (j.textOf "type_name") (WrapperMode.read j)
  | "wrapper_generated" =>
    .wrapperGenerated (j.textOf "type_name") (WrapperMode.read j) (j.textOf "file_name") (j.natOf "events" 0)
  | "source_added" => .sourceAdded (j.textOf "hint_name") (j.natOf "bytes" 0)
  | "diagnostic_reported" => .diagnosticReported (Diagnostic.read (j.field "diagnostic"))
  | "type_failed" => .typeFailed (j.textOf "type_name") (j.textOf "message")
  | "pass_cancelled" => .cancelled (j.natOf "processed" 0)
  | _ => .completed (j.natOf "sources" 0) (j.natOf "diagnostics" 0) ⟨j.natOf "nanos" 0⟩

def fields : PassEvent → List (String × Json)
  | .started ofInstances ofStatics => [("instance_requests", nat ofInstances), ("static_requests", nat ofStatics)]
  | .deduplicated typeName mode => [("type_name", text typeName), ("mode", text mode.word)]
  | .wrapperGenerated typeName mode fileName events =>
    [("type_name", text typeName), ("mode", text mode.word), ("file_name", text fileName), ("events", nat events)]
  | .sourceAdded hintName bytes => [("hint_name", text hintName), ("bytes", nat bytes)]
  | .diagnosticReported d => [("text", text d.toText)]
  | .typeFailed typeName message => [("type_name", text typeName), ("message", text message)]
  | .cancelled processed => [("processed", nat processed)]
  | .completed sources diagnostics _ => [("sources", nat sources), ("diagnostics", nat diagnostics)]

def toJson (e : PassEvent) : Json := record (("type", text e.typeName) :: e.fields)

end PassEvent

end EventWrap
