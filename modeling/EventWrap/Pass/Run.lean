import EventWrap.Pass.Transcript
import EventWrap.Pass.Chain
import EventWrap.Triggers
import EventWrap.Wrapper.Factory

/-!
# Passes

A pass discovers the requests of a program and answers them one after the other, handing each unit
to a host. What goes wrong with one type, a refusal included, becomes a diagnostic; only a missing
holder and cancellation end a pass early. The transcript tells all that passed between the pass and
its host.
-/

namespace EventWrap

/-! ## State -/

/-- A wrapper class by namespace, name and number of type parameters. -/
abbrev ClassKey := String × String × Nat

def Wrapper.classKey (w : Wrapper) : ClassKey :=
  (w.namespaceName, w.name, w.declaration.typeParameters.length)

structure PassState (σ : Type) where
  host : σ
  metrics : Metrics := {}
  units : List GeneratedUnit := []
  diagnostics : List Diagnostic := []
  exposure : Exposure := []
  /-- The classes delivered so far, with the types that they wrap. -/
  claimed : List (ClassKey × TypeId) := []
  factories : List FactoryMethod := []
  /-- How many requests have been answered. -/
  processed : Nat := 0
  transcript : Transcript := []

/-- A step of a pass, which may end it. -/
abbrev PassStep (σ α : Type) := EStateM PassError (PassState σ) α

/-- The number of a question whether the pass is to stop, in the order in which a pass asks. -/
abbrev Turn := Nat

namespace Turn

def triggers : Turn := 0

/-- Before the request that follows some answered ones, or before the extensions after the last. -/
def request (answered : Nat) : Turn := 2 * answered + 1

/-- When the wrappers for this request are built. -/
def wrappers (answered : Nat) : Turn := 2 * answered + 2

end Turn

structure PassInput where
  program : Program
  settings : Settings := {}
  damage : Damage := fun _ => none
  /-- Whether the pass was cancelled from elsewhere by the time it asks. -/
  interrupted : Turn → Bool := fun _ => false

/-- The pass over a program of which every signature can be read. -/
def Program.pass (p : Program) (s : Settings) : PassInput := { program := p, settings := s }

/-- Whether a pass that asks at some turn is to stop. -/
def PassInput.stops {σ : Type} (i : PassInput) (h : Host σ) (turn : Turn) (st : PassState σ) : Bool :=
  h.cancelled st.host || i.interrupted turn

namespace PassStep

variable {σ : Type} (h : Host σ) (i : PassInput)

def note (x : Exchange) : PassStep σ Unit := modify fun st => { st with transcript := st.transcript ++ [x] }

def record (change : Metrics → Metrics) : PassStep σ Unit := modify fun st => { st with metrics := change st.metrics }

def tell (e : PassEvent) : PassStep σ Unit := do
  modify fun st => { st with host := h.notify e st.host }
  note (.told e)

def checkCancelled (turn : Turn) : PassStep σ Unit := do
  if i.stops h turn (← get) then throw .cancelled

/-! ## Units and diagnostics -/

def report (d : Diagnostic) : PassStep σ Unit := do
  record (·.recordDiagnostic d.id d.severity)
  tell h (.diagnosticReported d)
  modify fun st => { st with host := h.report d st.host, diagnostics := st.diagnostics ++ [d] }
  note (.reported d)

def refuse (subject reason : String) (location : Location) : PassStep σ Unit :=
  report h (Diagnostic.ofKind .outputConflict location [subject, reason])

/-- The host's answer to a unit. -/
def offer (d : Delivery) : PassStep σ (Except HostError Unit) := do
  let st ← get
  let (answer, host) := h.offer d.hintName d.text st.host
  set { st with host := host }
  note (.offered d answer)
  return answer

/-- Hands a unit to the host, and says whether it was taken. A refusal is reported. -/
def deliverUnit (d : Delivery) : PassStep σ Bool := do
  match ← offer h d with
  | .ok () =>
    let bytes := d.text.utf8ByteSize
    record (·.recordSource bytes)
    tell h (.sourceAdded d.hintName bytes)
    modify fun st => { st with units := st.units ++ [⟨d.hintName, d.kind, bytes⟩] }
    return true
  | .error .cancelled => throw .cancelled
  | .error e =>
    refuse h d.subject e.message d.location
    return false

/-! ## Wrappers -/

def unitOf (location : Location) (w : Wrapper) : Delivery where
  hintName := w.fileName
  text := w.render i.settings
  kind := .wrapper (i.program.qualifiedName w.source) w.mode w.events
  subject := i.program.qualifiedName w.source
  location := location
  wrapper := some w

/-- What a delivered wrapper adds to the state. -/
def accept (w : Wrapper) : PassStep σ Unit := do
  modify fun st => { st with claimed := (w.classKey, w.source) :: st.claimed }
  record (·.recordWrapper w.mode w.events.length)
  tell h (.wrapperGenerated (i.program.qualifiedName w.source) w.mode w.fileName w.events.length)
  if w.mode = .ofInstance then
    modify fun st => { st with exposure := (w.source, w.exposed) :: st.exposure }
  match i.program.factory? i.settings w with
  | some factory =>
    record (·.recordFactory)
    modify fun st => { st with factories := st.factories ++ [factory] }
  | none => return

/-- Delivers a wrapper, and says whether it was taken. A class belongs to one type in a pass. -/
def deliver (location : Location) (w : Wrapper) : PassStep σ Bool := do
  let owner := (← get).claimed.lookup w.classKey
  match owner.filter (· ≠ w.source) with
  | some owner =>
    refuse h (i.program.qualifiedName w.source)
      ("wrapper class '" ++ w.name ++ "' is already generated for '" ++ i.program.qualifiedName owner ++ "'") location
    return false
  | none =>
    if ← deliverUnit h (unitOf i location w) then
      accept h i w
      return true
    else return false

/-- Delivers wrappers up to the first that is not taken: later ones derive from it. -/
def deliverAll (location : Location) : List Wrapper → PassStep σ Unit
  | [] => return
  | w :: rest => do
    if ← deliver h i location w then deliverAll location rest

/-! ## Requests -/

/-- The wrappers that a request still needs. Where there can be none, that is reported. Work
finished after cancellation is dropped. -/
def build (r : Request) : PassStep σ (List Wrapper) := do
  let st ← get
  let name := i.program.qualifiedName r.type
  checkCancelled h i (.wrappers st.processed)
  match i.damage.stopping? i.program st.exposure r with
  | some message =>
    tell h (.typeFailed name message)
    report h (Diagnostic.ofKind .generationFailed r.location [name, message])
    return []
  | none =>
    match i.program.wrappersFor? i.settings st.exposure r with
    | some wrappers => return wrappers
    | none =>
      report h (Diagnostic.ofKind .eventsNotFound r.location [name, r.mode.word])
      return []

def answer (r : Request) : PassStep σ Unit := do
  deliverAll h i r.location (← build h i r)

def answerAll : List Request → PassStep σ Unit
  | [] => return
  | r :: rest => do
    checkCancelled h i (.request (← get).processed)
    answer h i r
    modify fun st => { st with processed := st.processed + 1 }
    answerAll rest

/-- Records and announces what was discovered. -/
def announce (requests : Requests) : PassStep σ Unit := do
  requests.toList.forM fun r => record (·.recordRequest r.mode)
  requests.repeated.forM fun r => do
    record (·.recordDuplicate)
    tell h (.deduplicated (i.program.qualifiedName r.type) r.mode)
  tell h (.started requests.ofInstances.length requests.ofStatics.length)

def triggersUnitOf : Delivery where
  hintName := Settings.triggersFileName
  text := i.settings.renderTriggers
  kind := .bootstrap
  subject := i.settings.holderName
  location := {}

def deliverTriggers : PassStep σ Unit := do
  if i.settings.emitBootstrap then
    checkCancelled h i .triggers
    let _ ← deliverUnit h (triggersUnitOf i)

def extensionsUnitOf (factories : List FactoryMethod) (text : String) : Delivery where
  hintName := extensionsFileName
  text := text
  kind := .extensions factories.length
  subject := i.settings.holderName
  location := {}

def deliverExtensions : PassStep σ Unit := do
  checkCancelled h i (.request (← get).processed)
  let factories := (← get).factories
  match i.settings.renderExtensions factories with
  | some text => let _ ← deliverUnit h (extensionsUnitOf i factories text)
  | none => return

/-- What a pass does before it answers the first request. -/
def prepare (requests : Requests) : PassStep σ Unit := do
  announce h i requests
  deliverTriggers h i

/-- A whole pass but for its last event. -/
def execute : PassStep σ Unit := do
  match i.program.discover i.settings with
  | .error e => throw e
  | .ok requests =>
    prepare h i requests
    answerAll h i requests.toList
    deliverExtensions h i

end PassStep

/-! ## Running a pass -/

structure PassResult (σ : Type) where
  outcome : Except PassError PassReport
  host : σ
  transcript : Transcript

namespace PassInput

variable {σ : Type}

def finish (h : Host σ) : PassStep σ PassReport := do
  let st ← get
  PassStep.tell h (.completed st.units.length st.diagnostics.length st.metrics.timing.totalTime)
  return { outcome := .completed, units := st.units, diagnostics := st.diagnostics, metrics := st.metrics }

/-- Says that a pass was cancelled. -/
def abandon (h : Host σ) : PassError → PassStep σ PassReport
  | .cancelled => do
    PassStep.tell h (.cancelled (← get).processed)
    throw .cancelled
  | e => throw e

def steps (h : Host σ) (i : PassInput) : PassStep σ PassReport := do
  tryCatch (PassStep.execute h i *> finish h) (abandon h)

/-- Runs a pass over a host in the given state. -/
def run (h : Host σ) (i : PassInput) (start : σ) : PassResult σ :=
  match i.steps h { host := start } with
  | .ok report st => ⟨.ok report, st.host, st.transcript⟩
  | .error e st => ⟨.error e, st.host, st.transcript⟩

end PassInput

end EventWrap
