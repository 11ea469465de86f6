import EventWrap.Diagnostic
import EventWrap.Duration
import EventWrap.Json.Decoder
import EventWrap.Json.Reader
import EventWrap.Wrapper.Mode

/-!
# Metrics of a pass

Counters of what a pass was asked for, put out and reported, with the time it took.
-/

namespace EventWrap

/-! ## Counting by name -/

/-- Names with numbers, the names ascending. -/
abbrev Tally := List (String × Nat)

namespace Tally

/-- Sets the number of a name. -/
def insert (name : String) (n : Nat) : Tally → Tally
  | [] => [(name, n)]
  | entry :: rest =>
    if name = entry.1 then (name, n) :: rest
    else if name < entry.1 then (name, n) :: entry :: rest
    else entry :: insert name n rest

/-- Counts a name once more. -/
def increment (t : Tally) (name : String) : Tally := t.insert name ((t.lookup name).getD 0 + 1)

def ofList (entries : List (String × Nat)) : Tally := entries.foldl (fun t e => insert e.1 e.2 t) []

end Tally

/-! ## Metrics -/

structure Timing where
  startedAt : Option Duration := none
  totalTime : Duration := {}
  discoveryTime : Duration := {}
  deriving DecidableEq, Inhabited

structure RequestCounts where
  ofInstances : Nat := 0
  ofStatics : Nat := 0
  duplicates : Nat := 0
  deriving DecidableEq, Inhabited

structure OutputCounts where
  instanceWrappers : Nat := 0
  staticWrappers : Nat := 0
  eventsWrapped : Nat := 0
  factoryMethods : Nat := 0
  sourceUnits : Nat := 0
  totalBytes : Nat := 0
  deriving DecidableEq, Inhabited

structure DiagnosticCounts where
  info : Nat := 0
  warnings : Nat := 0
  errors : Nat := 0
  byId : Tally := []
  deriving DecidableEq, Inhabited

structure Metrics where
  timing : Timing := {}
  requests : RequestCounts := {}
  output : OutputCounts := {}
  diagnostics : DiagnosticCounts := {}
  deriving DecidableEq, Inhabited

namespace Metrics

/-! ## Recording -/

def recordStart (now : Duration) (m : Metrics) : Metrics :=
  { m with timing := { m.timing with startedAt := some now } }

/-- The total time is measured only from a recorded start. -/
def recordEnd (now : Duration) (m : Metrics) : Metrics :=
  match m.timing.startedAt with
  | some start =>
    { m with timing := { m.timing with totalTime := ⟨now.nanoseconds - start.nanoseconds⟩ } }
  | none => m

def recordDiscovery (time : Duration) (m : Metrics) : Metrics :=
  { m with timing := { m.timing with discoveryTime := time } }

def recordRequest (mode : WrapperMode) (m : Metrics) : Metrics :=
  match mode with
  | .ofInstance => { m with requests := { m.requests with ofInstances := m.requests.ofInstances + 1 } }
  | .ofStatics => { m with requests := { m.requests with ofStatics := m.requests.ofStatics + 1 } }

def recordDuplicate (m : Metrics) : Metrics :=
  { m with requests := { m.requests with duplicates := m.requests.duplicates + 1 } }

def recordWrapper (mode : WrapperMode) (events : Nat) (m : Metrics) : Metrics :=
  let output := { m.output with eventsWrapped := m.output.eventsWrapped + events }
  match mode with
  | .ofInstance => { m with output := { output with instanceWrappers := output.instanceWrappers + 1 } }
  | .ofStatics => { m with output := { output with staticWrappers := output.staticWrappers + 1 } }

def recordFactory (m : Metrics) : Metrics :=
  { m with output := { m.output with factoryMethods := m.output.factoryMethods + 1 } }

def recordSource (bytes : Nat) (m : Metrics) : Metrics :=
  { m with output :=
    { m.output with sourceUnits := m.output.sourceUnits + 1, totalBytes := m.output.totalBytes + bytes } }

def recordDiagnostic (id : String) (severity : Severity) (m : Metrics) : Metrics :=
  let counts := { m.diagnostics with byId := m.diagnostics.byId.increment id }
  match severity with
  | .info => { m with diagnostics := { counts with info := counts.info + 1 } }
  | .warning => { m with diagnostics := { counts with warnings := counts.warnings + 1 } }
  | .error => { m with diagnostics := { counts with errors := counts.errors + 1 } }

end Metrics

/-! ## Metrics as JSON -/

open Json Json.Decoder

def Duration.toJson (d : Duration) : Json := nat d.nanoseconds

/-- A number of nanoseconds, of which the lower 64 bits count. -/
def Duration.decoder : Decoder Duration := fun room j =>
  (natural (UInt64.size * UInt64.size) room j).map fun n => ⟨n % UInt64.size⟩

/-- A counter of 64 bits. -/
def counter : Decoder Nat := natural UInt64.size

def Timing.toJson (t : Timing) : Json :=
  record [("total_time", t.totalTime.toJson), ("discovery_time", t.discoveryTime.toJson)]

def Timing.decoder : Decoder Timing :=
  Decoder.record ["total_time", "discovery_time"] fun room fields => match fields with
    | [totalTime, discoveryTime] => do
      return {
        totalTime := ← required Duration.decoder room totalTime
        discoveryTime := ← required Duration.decoder room discoveryTime }
    | _ => none

def RequestCounts.toJson (r : RequestCounts) : Json :=
  record [("instance", nat r.ofInstances), ("static", nat r.ofStatics), ("duplicates", nat r.duplicates)]

def RequestCounts.decoder : Decoder RequestCounts :=
  Decoder.record ["instance", "static", "duplicates"] fun room fields => match fields with
    | [ofInstances, ofStatics, duplicates] => do
      return {
        ofInstances := ← required counter room ofInstances
        ofStatics := ← required counter room ofStatics
        duplicates := ← required counter room duplicates }
    | _ => none

def OutputCounts.toJson (o : OutputCounts) : Json :=
  record [("instance_wrappers", nat o.instanceWrappers), ("static_wrappers", nat o.staticWrappers),
    ("events_wrapped", nat o.eventsWrapped), ("factory_methods", nat o.factoryMethods),
    ("source_units", nat o.sourceUnits), ("total_bytes", nat o.totalBytes)]

def OutputCounts.decoder : Decoder OutputCounts :=
  Decoder.record ["instance_wrappers", "static_wrappers", "events_wrapped", "factory_methods", "source_units",
      "total_bytes"] fun room fields => match fields with
    | [instanceWrappers, staticWrappers, eventsWrapped, factoryMethods, sourceUnits, totalBytes] => do
      return {
        instanceWrappers := ← required counter room instanceWrappers
        staticWrappers := ← required counter room staticWrappers
        eventsWrapped := ← required counter room eventsWrapped
        factoryMethods := ← required counter room factoryMethods
        sourceUnits := ← required counter room sourceUnits
        totalBytes := ← required counter room totalBytes }
    | _ => none

def DiagnosticCounts.toJson (d : DiagnosticCounts) : Json :=
  record [("info", nat d.info), ("warnings", nat d.warnings), ("errors", nat d.errors),
    ("by_id", record (d.byId.map fun (id, n) => (id, nat n)))]

def DiagnosticCounts.decoder : Decoder DiagnosticCounts :=
  Decoder.record ["info", "warnings", "errors", "by_id"] fun room fields => match fields with
    | [info, warnings, errors, byId] => do
      return {
        info := ← required counter room info
        warnings := ← required counter room warnings
        errors := ← required counter room errors
        byId := Tally.ofList (← required (table counter) room byId) }
    | _ => none

namespace Metrics

def toJson (m : Metrics) : Json :=
  record [("timing", m.timing.toJson), ("requests", m.requests.toJson), ("output", m.output.toJson),
    ("diagnostics", m.diagnostics.toJson)]

def decoder : Decoder Metrics :=
  Decoder.record ["timing", "requests", "output", "diagnostics"] fun room fields => match fields with
    | [timing, requests, output, diagnostics] => do
      return {
        timing := ← required Timing.decoder room timing
        requests := ← required RequestCounts.decoder room requests
        output := ← required OutputCounts.decoder room output
        diagnostics := ← required DiagnosticCounts.decoder room diagnostics }
    | _ => none

def parse? (text : String) : Option Metrics := (Json.parse? text).bind (decoder 127)

end Metrics

end EventWrap
