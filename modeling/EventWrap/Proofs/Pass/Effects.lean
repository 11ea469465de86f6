import EventWrap.Pass.Run
import Mathlib.Tactic.Common

/-!
# What the steps of a pass do

Each step of a pass is given as an equation: the state that it leaves, written with the four things
that can happen, an event told, a diagnostic reported, a unit offered and taken, and a wrapper
entered. What happens to the delivered wrappers, the diagnostics and the records of a pass is then
read off these states.
-/

namespace EventWrap

/-! ## Views of a transcript -/

namespace Transcript

variable (t t' : Transcript)

@[simp] theorem taken_append : taken (t ++ t') = taken t ++ taken t' := by
  simp [taken]

@[simp] theorem taken_told (e : PassEvent) : taken [.told e] = [] := rfl

@[simp] theorem taken_reported (d : Diagnostic) : taken [.reported d] = [] := rfl

@[simp] theorem taken_refused (u : Delivery) (e : HostError) :
    taken [.offered u (.error e)] = [] := rfl

@[simp] theorem taken_taken (u : Delivery) : taken [.offered u (.ok ())] = [u] := rfl

@[simp] theorem wrappers_append : wrappers (t ++ t') = wrappers t ++ wrappers t' := by
  simp [wrappers, taken]

@[simp] theorem diagnostics_append : diagnostics (t ++ t') = diagnostics t ++ diagnostics t' := by
  simp [diagnostics]

@[simp] theorem wrappers_told (e : PassEvent) : wrappers [.told e] = [] := rfl

@[simp] theorem wrappers_reported (d : Diagnostic) : wrappers [.reported d] = [] := rfl

@[simp] theorem wrappers_refused (u : Delivery) (e : HostError) :
    wrappers [.offered u (.error e)] = [] := rfl

@[simp] theorem wrappers_taken (u : Delivery) :
    wrappers [.offered u (.ok ())] = u.wrapper.toList := by
  cases hu : u.wrapper <;> simp [wrappers, taken, Exchange.taken?, hu]

@[simp] theorem diagnostics_told (e : PassEvent) : diagnostics [.told e] = [] := rfl

@[simp] theorem diagnostics_reported (d : Diagnostic) : diagnostics [.reported d] = [d] := rfl

@[simp] theorem diagnostics_offered (u : Delivery) (answer : Except HostError Unit) :
    diagnostics [.offered u answer] = [] := rfl

end Transcript

/-! ## States -/

namespace PassState

variable {σ : Type} (h : Host σ)

/-- An event was told. -/
def told (e : PassEvent) (st : PassState σ) : PassState σ :=
  { st with host := h.notify e st.host, transcript := st.transcript ++ [.told e] }

def recorded (change : Metrics → Metrics) (st : PassState σ) : PassState σ :=
  { st with metrics := change st.metrics }

/-- A diagnostic was counted, told and handed to the host. -/
def reported (d : Diagnostic) (st : PassState σ) : PassState σ :=
  let st := (st.recorded (·.recordDiagnostic d.id d.severity)).told h (.diagnosticReported d)
  { st with
    host := h.report d st.host
    diagnostics := st.diagnostics ++ [d]
    transcript := st.transcript ++ [.reported d] }

/-- The host's answer to a unit. -/
def answerTo (u : Delivery) (st : PassState σ) : Except HostError Unit :=
  (h.offer u.hintName u.text st.host).1

/-- A unit was offered. -/
def offered (u : Delivery) (st : PassState σ) : PassState σ :=
  { st with
    host := (h.offer u.hintName u.text st.host).2
    transcript := st.transcript ++ [.offered u (st.answerTo h u)] }

/-- A unit was offered and taken. -/
def stored (u : Delivery) (st : PassState σ) : PassState σ :=
  let bytes := u.text.utf8ByteSize
  let st := ((st.offered h u).recorded (·.recordSource bytes)).told h
    (.sourceAdded u.hintName bytes)
  { st with units := st.units ++ [⟨u.hintName, u.kind, bytes⟩] }

/-- A delivered wrapper was entered in the records. -/
def entered (i : PassInput) (w : Wrapper) (st : PassState σ) : PassState σ :=
  let st := ({ st with claimed := (w.classKey, w.source) :: st.claimed }.recorded
    (·.recordWrapper w.mode w.events.length)).told h
      (.wrapperGenerated (i.program.qualifiedName w.source) w.mode w.fileName w.events.length)
  let st := if w.mode = .ofInstance then
    { st with exposure := (w.source, w.exposed) :: st.exposure } else st
  match i.program.factory? i.settings w with
  | some factory => { st.recorded (·.recordFactory) with factories := st.factories ++ [factory] }
  | none => st

/-- One more request was answered. -/
def counted (st : PassState σ) : PassState σ := { st with processed := st.processed + 1 }

section Views

variable {h} (i : PassInput) (u : Delivery) (w : Wrapper) (st : PassState σ)

@[simp] theorem stored_exposure : (st.stored h u).exposure = st.exposure := rfl

@[simp] theorem stored_factories : (st.stored h u).factories = st.factories := rfl

@[simp] theorem stored_diagnostics : (st.stored h u).diagnostics = st.diagnostics := rfl

theorem stored_units :
    (st.stored h u).units = st.units ++ [⟨u.hintName, u.kind, u.text.utf8ByteSize⟩] := rfl

theorem stored_metrics :
    (st.stored h u).metrics = st.metrics.recordSource u.text.utf8ByteSize := rfl

theorem reported_metrics (d : Diagnostic) :
    (st.reported h d).metrics = st.metrics.recordDiagnostic d.id d.severity := rfl

theorem reported_diagnostics (d : Diagnostic) :
    (st.reported h d).diagnostics = st.diagnostics ++ [d] := rfl

theorem reported_transcript (d : Diagnostic) : (st.reported h d).transcript =
    st.transcript ++ [.told (.diagnosticReported d), .reported d] := by
  simp [reported, told, recorded]

theorem stored_transcript {u : Delivery} {st : PassState σ} (hu : st.answerTo h u = .ok ()) :
    (st.stored h u).transcript =
      st.transcript ++ [.offered u (.ok ()), .told
        (.sourceAdded u.hintName u.text.utf8ByteSize)] := by
  simp [stored, told, recorded, offered, hu]

theorem stored_taken {u : Delivery} {st : PassState σ} (hu : st.answerTo h u = .ok ()) :
    (st.stored h u).transcript.taken = st.transcript.taken ++ [u] := by
  simp [stored_transcript hu, Transcript.taken, Exchange.taken?]

theorem entered_host : (st.entered h i w).host =
    h.notify (.wrapperGenerated (i.program.qualifiedName w.source) w.mode w.fileName
      w.events.length) st.host := by
  unfold entered
  cases w.mode <;> cases i.program.factory? i.settings w <;> rfl

theorem entered_exposure : (st.entered h i w).exposure =
    if w.mode = .ofInstance then (w.source, w.exposed) :: st.exposure else st.exposure := by
  unfold entered
  cases w.mode <;> cases i.program.factory? i.settings w <;> rfl

theorem entered_factories :
    (st.entered h i w).factories = st.factories ++ (i.program.factory? i.settings w).toList := by
  unfold entered
  cases w.mode <;> cases i.program.factory? i.settings w <;> simp [told, recorded]

theorem entered_claimed : (st.entered h i w).claimed = (w.classKey, w.source) :: st.claimed := by
  unfold entered
  cases w.mode <;> cases i.program.factory? i.settings w <;> rfl

@[simp] theorem entered_diagnostics : (st.entered h i w).diagnostics = st.diagnostics := by
  unfold entered
  cases w.mode <;> cases i.program.factory? i.settings w <;> rfl

@[simp] theorem entered_units : (st.entered h i w).units = st.units := by
  unfold entered
  cases w.mode <;> cases i.program.factory? i.settings w <;> rfl

@[simp] theorem entered_processed : (st.entered h i w).processed = st.processed := by
  unfold entered
  cases w.mode <;> cases i.program.factory? i.settings w <;> rfl

/-- Exactly the instance wrappers have a factory method. -/
theorem entered_metrics : (st.entered h i w).metrics =
    if w.mode = .ofInstance then (st.metrics.recordWrapper w.mode w.events.length).recordFactory
    else st.metrics.recordWrapper w.mode w.events.length := by
  unfold entered Program.factory?
  cases w.mode <;> rfl

theorem entered_transcript : (st.entered h i w).transcript = st.transcript ++
    [.told (.wrapperGenerated (i.program.qualifiedName w.source) w.mode w.fileName
      w.events.length)] := by
  unfold entered
  cases w.mode <;> cases i.program.factory? i.settings w <;> rfl

end Views

/-- Another type that the class of a wrapper belongs to already. -/
def owner? (w : Wrapper) (st : PassState σ) : Option TypeId :=
  (st.claimed.lookup w.classKey).filter (· ≠ w.source)

end PassState

namespace PassStep

variable {σ : Type} (h : Host σ) (i : PassInput)

/-! ## Equations -/

/-- What is reported of a unit that the host refused. -/
def refusal (u : Delivery) (e : HostError) : Diagnostic :=
  Diagnostic.ofKind .outputConflict u.location [u.subject, e.message]

/-- What is reported of a wrapper whose class belongs to another type. -/
def clash (location : Location) (w : Wrapper) (owner : TypeId) : Diagnostic :=
  Diagnostic.ofKind .outputConflict location [i.program.qualifiedName w.source,
    "wrapper class '" ++ w.name ++ "' is already generated for '" ++
    i.program.qualifiedName owner ++ "'"]

theorem bind_run {α β : Type} (x : PassStep σ α) (f : α → PassStep σ β) (st : PassState σ) :
    (x >>= f) st =
      match x st with
      | .ok a st' => f a st'
      | .error e st' => .error e st' := by
  simp only [bind, EStateM.bind]
  cases x st <;> rfl

theorem bind_ok {α β : Type} {x : PassStep σ α} {a : α} {st st' : PassState σ}
    (f : α → PassStep σ β) (hx : x st = .ok a st') : (x >>= f) st = f a st' := by
  simp only [bind, EStateM.bind, hx]

theorem get_bind_run {α : Type} (f : PassState σ → PassStep σ α) (st : PassState σ) :
    (get >>= f) st = f st st := rfl

theorem record_run (change : Metrics → Metrics) (st : PassState σ) :
    record change st = .ok () (st.recorded change) := rfl

theorem tell_run (e : PassEvent) (st : PassState σ) : tell h e st = .ok () (st.told h e) := rfl

theorem report_run (d : Diagnostic) (st : PassState σ) : report h d st = .ok () (st.reported h d) :=
  rfl

theorem offer_run (u : Delivery) (st : PassState σ) :
    offer h u st = .ok (st.answerTo h u) (st.offered h u) := rfl

theorem checkCancelled_run (turn : Turn) (st : PassState σ) :
    checkCancelled h i turn st = if i.stops h turn st then .error .cancelled st else .ok () st := by
  change (if i.stops h turn st then throw .cancelled else pure () : PassStep σ Unit) st = _
  split <;> rfl

theorem deliverUnit_run (u : Delivery) (st : PassState σ) :
    deliverUnit h u st =
      match st.answerTo h u with
      | .ok () => .ok true (st.stored h u)
      | .error .cancelled => .error .cancelled (st.offered h u)
      | .error e => .ok false ((st.offered h u).reported h (refusal u e)) := by
  unfold deliverUnit
  simp only [bind, EStateM.bind, offer_run]
  rcases st.answerTo h u with e | ⟨⟩
  · cases e <;> rfl
  · rfl

/-- A host takes a unit, wants the pass to be cancelled, or refuses the unit. -/
theorem verdict_cases (answer : Except HostError Unit) :
    answer = .ok () ∨ answer = .error .cancelled ∨ ∃ e, answer = .error e ∧ e ≠ .cancelled := by
  rcases answer with e | ⟨⟩
  · by_cases he : e = .cancelled
    · exact .inr (.inl (by rw [he]))
    · exact .inr (.inr ⟨e, rfl, he⟩)
  · exact .inl rfl

section Answered

variable {h} {u : Delivery} {e : HostError} {st : PassState σ}

theorem deliverUnit_of_taken (hu : st.answerTo h u = .ok ()) :
    deliverUnit h u st = .ok true (st.stored h u) := by
  rw [deliverUnit_run, hu]

theorem deliverUnit_of_cancelled (hu : st.answerTo h u = .error .cancelled) :
    deliverUnit h u st = .error .cancelled (st.offered h u) := by
  rw [deliverUnit_run, hu]

theorem deliverUnit_of_refused (hu : st.answerTo h u = .error e) (he : e ≠ .cancelled) :
    deliverUnit h u st = .ok false ((st.offered h u).reported h (refusal u e)) := by
  rw [deliverUnit_run, hu]
  cases e with
  | cancelled => exact absurd rfl he
  | io | invalidFileName => rfl

end Answered

theorem accept_run (w : Wrapper) (st : PassState σ) :
    accept h i w st = .ok () (st.entered h i w) := by
  unfold accept PassState.entered
  simp only [bind, EStateM.bind, record_run, tell_run]
  cases hm : w.mode <;> cases i.program.factory? i.settings w <;> rfl

theorem deliver_run (location : Location) (w : Wrapper) (st : PassState σ) :
    deliver h i location w st =
      match st.owner? w with
      | some owner => .ok false (st.reported h (clash i location w owner))
      | none =>
        match st.answerTo h (unitOf i location w) with
        | .ok () => .ok true ((st.stored h (unitOf i location w)).entered h i w)
        | .error .cancelled => .error .cancelled (st.offered h (unitOf i location w))
        | .error e =>
          .ok false ((st.offered h (unitOf i location w)).reported h
            (refusal (unitOf i location w) e)) := by
  unfold deliver PassState.owner?
  rw [get_bind_run]
  cases (st.claimed.lookup w.classKey).filter (· ≠ w.source) with
  | some owner => rfl
  | none =>
    simp only [bind_run, deliverUnit_run]
    rcases st.answerTo h (unitOf i location w) with e | ⟨⟩
    · cases e <;> rfl
    · simp only [↓reduceIte, bind_run, accept_run]
      rfl

section Free

variable {h i} {location : Location} {w : Wrapper} {owner : TypeId} {e : HostError}
  {st : PassState σ}

theorem deliver_of_clash (howner : st.owner? w = some owner) :
    deliver h i location w st = .ok false (st.reported h (clash i location w owner)) := by
  rw [deliver_run, howner]

variable (hfree : st.owner? w = none)

include hfree

theorem deliver_of_taken (hu : st.answerTo h (unitOf i location w) = .ok ()) :
    deliver h i location w st =
      .ok true ((st.stored h (unitOf i location w)).entered h i w) := by
  rw [deliver_run, hfree, hu]

theorem deliver_of_cancelled (hu : st.answerTo h (unitOf i location w) = .error .cancelled) :
    deliver h i location w st = .error .cancelled (st.offered h (unitOf i location w)) := by
  rw [deliver_run, hfree, hu]

theorem deliver_of_refused (hu : st.answerTo h (unitOf i location w) = .error e)
    (he : e ≠ .cancelled) :
    deliver h i location w st = .ok false
      ((st.offered h (unitOf i location w)).reported h (refusal (unitOf i location w) e)) := by
  rw [deliver_run, hfree, hu]
  cases e with
  | cancelled => exact absurd rfl he
  | io | invalidFileName => rfl

end Free

theorem deliverAll_cons_run (location : Location) (w : Wrapper) (rest : List Wrapper)
    (st : PassState σ) :
    deliverAll h i location (w :: rest) st =
      match deliver h i location w st with
      | .ok true st' => deliverAll h i location rest st'
      | .ok false st' => .ok () st'
      | .error e st' => .error e st' := by
  rw [deliverAll, bind_run]
  rcases deliver h i location w st with ⟨taken, st'⟩ | ⟨e, st'⟩
  · cases taken <;> rfl
  · rfl

/-- The state that a step leaves, whether or not it ends the pass. -/
def stateAfter {α : Type} (x : PassStep σ α) (st : PassState σ) : PassState σ :=
  match x st with
  | .ok _ st' => st'
  | .error _ st' => st'

section StateAfter

variable {α : Type} {x : PassStep σ α} {a : α} {e : PassError} {st st' : PassState σ}

theorem stateAfter_ok (hx : x st = .ok a st') : stateAfter x st = st' := by rw [stateAfter, hx]

theorem stateAfter_error (hx : x st = .error e st') : stateAfter x st = st' := by
  rw [stateAfter, hx]

/-- What holds after a step and is kept by what follows it holds after both. -/
theorem stateAfter_bind {β : Type} {f : α → PassStep σ β} {I : PassState σ → Prop}
    (hx : I (stateAfter x st)) (hf : ∀ a st', I st' → I (stateAfter (f a) st')) :
    I (stateAfter (x >>= f) st) := by
  rw [stateAfter, bind_run]
  rcases hrun : x st with ⟨a, st'⟩ | ⟨e, st'⟩
  · rw [stateAfter_ok hrun] at hx
    exact hf a st' hx
  · rwa [stateAfter_error hrun] at hx

end StateAfter

/-- The pass over a program is cancelled by its host only. -/
@[simp] theorem stops_pass (p : Program) (s : Settings) (turn : Turn) (st : PassState σ) :
    (p.pass s).stops h turn st = h.cancelled st.host :=
  Bool.or_false _

/-- Where every signature can be read nothing stops the answer to a request. -/
theorem stopping?_pass (p : Program) (s : Settings) (known : Exposure) (r : Request) :
    (p.pass s).damage.stopping? (p.pass s).program known r = none := by
  apply List.findSome?_eq_none_iff.2
  intro delegate _
  simp only [Damage.of?, Program.pass]
  cases delegate.stripNullable.namedType? <;> rfl

theorem build_run (r : Request) (st : PassState σ) :
    build h i r st =
      if i.stops h (.wrappers st.processed) st then .error .cancelled st
      else match i.damage.stopping? i.program st.exposure r with
        | some message => .ok [] ((st.told h (.typeFailed
          (i.program.qualifiedName r.type) message)).reported h
            (Diagnostic.ofKind .generationFailed r.location
              [i.program.qualifiedName r.type, message]))
        | none =>
          match i.program.wrappersFor? i.settings st.exposure r with
          | some wrappers => .ok wrappers st
          | none => .ok [] (st.reported h
              (Diagnostic.ofKind .eventsNotFound r.location
                [i.program.qualifiedName r.type, r.mode.word])) := by
  unfold build
  rw [get_bind_run, bind_run, checkCancelled_run]
  by_cases hc : i.stops h (.wrappers st.processed) st
  · rw [if_pos hc, if_pos hc]
  · rw [if_neg hc, if_neg hc]
    cases i.damage.stopping? i.program st.exposure r with
    | some message => rfl
    | none => cases i.program.wrappersFor? i.settings st.exposure r <;> rfl

theorem answer_run (r : Request) (st : PassState σ) :
    answer h i r st =
      match build h i r st with
      | .ok ws st' => deliverAll h i r.location ws st'
      | .error e st' => .error e st' := by
  rw [answer, bind_run]
  cases build h i r st <;> rfl

theorem answerAll_cons_run (r : Request) (rest : List Request) (st : PassState σ) :
    answerAll h i (r :: rest) st =
      if i.stops h (.request st.processed) st then .error .cancelled st
      else match answer h i r st with
        | .ok () st' => answerAll h i rest st'.counted
        | .error e st' => .error e st' := by
  rw [answerAll]
  rw [get_bind_run, bind_run, checkCancelled_run]
  by_cases hc : i.stops h (.request st.processed) st
  · rw [if_pos hc, if_pos hc]
  · rw [if_neg hc, if_neg hc]
    simp only [bind_run]
    rcases answer h i r st with ⟨⟨⟩, st'⟩ | ⟨e, st'⟩ <;> rfl

/-- What each answer keeps, all answers keep. -/
theorem stateAfter_answerAll {I : PassState σ → Prop}
    (hanswer : ∀ r {st}, I st → I (stateAfter (answer h i r) st))
    (hcounted : ∀ {st : PassState σ}, I st → I st.counted) (requests : List Request)
    {st : PassState σ} (hst : I st) : I (stateAfter (answerAll h i requests) st) := by
  induction requests generalizing st with
  | nil => exact hst
  | cons r rest ih =>
    have hfirst := hanswer r hst
    by_cases hc : i.stops h (.request st.processed) st
    · rwa [stateAfter, answerAll_cons_run, if_pos hc]
    · rw [stateAfter, answerAll_cons_run, if_neg hc]
      rcases hr : PassStep.answer h i r st with ⟨⟨⟩, st'⟩ | ⟨e, st'⟩
      · rw [stateAfter_ok hr] at hfirst
        exact ih (hcounted hfirst)
      · rwa [stateAfter_error hr] at hfirst

/-- Where all requests are answered, the first of them is. -/
theorem answerAll_cons_ok {h : Host σ} {i : PassInput} {r : Request} {rest : List Request}
    {st last : PassState σ} (hrun : answerAll h i (r :: rest) st = .ok () last) :
    ∃ st', answer h i r st = .ok () st' ∧ answerAll h i rest st'.counted = .ok () last := by
  rw [answerAll_cons_run] at hrun
  split at hrun
  · cases hrun
  · split at hrun
    · next st' hr => exact ⟨st', hr, hrun⟩
    · cases hrun

theorem deliverTriggers_run (st : PassState σ) :
    deliverTriggers h i st =
      if i.settings.emitBootstrap then
        if i.stops h .triggers st then .error .cancelled st
        else match deliverUnit h (triggersUnitOf i) st with
          | .ok _ st' => .ok () st'
          | .error e st' => .error e st'
      else .ok () st := by
  unfold deliverTriggers
  split
  · rw [bind_run, checkCancelled_run]
    by_cases hc : i.stops h .triggers st
    · rw [if_pos hc, if_pos hc]
    · rw [if_neg hc, if_neg hc]
      simp only [bind_run]
      cases deliverUnit h (triggersUnitOf i) st <;> rfl
  · rfl

theorem deliverExtensions_run (st : PassState σ) :
    deliverExtensions h i st =
      if i.stops h (.request st.processed) st then .error .cancelled st
      else match i.settings.renderExtensions st.factories with
        | some text =>
          match deliverUnit h (extensionsUnitOf i st.factories text) st with
          | .ok _ st' => .ok () st'
          | .error e st' => .error e st'
        | none => .ok () st := by
  unfold deliverExtensions
  rw [get_bind_run, bind_run, checkCancelled_run]
  by_cases hc : i.stops h (.request st.processed) st
  · rw [if_pos hc, if_pos hc]
  · rw [if_neg hc, if_neg hc]
    simp only [get_bind_run]
    cases i.settings.renderExtensions st.factories with
    | some text =>
      simp only [bind_run]
      cases deliverUnit h (extensionsUnitOf i st.factories text) st <;> rfl
    | none => rfl

/-- A pass with requests goes through its three parts. -/
theorem execute_eq {requests : Requests} (hd : i.program.discover i.settings = .ok requests) :
    execute h i = (do
      prepare h i requests
      answerAll h i requests.toList
      deliverExtensions h i) := by
  rw [execute, hd]

theorem execute_run {requests : Requests} (hd : i.program.discover i.settings = .ok requests)
    (st : PassState σ) :
    execute h i st =
      match prepare h i requests st with
      | .ok () st₁ =>
        match answerAll h i requests.toList st₁ with
        | .ok () st₂ => deliverExtensions h i st₂
        | .error e st₂ => .error e st₂
      | .error e st₁ => .error e st₁ := by
  rw [execute_eq h i hd]
  simp only [bind_run]
  rcases prepare h i requests st with ⟨⟨⟩, st₁⟩ | ⟨e, st₁⟩
  · simp only
    rcases answerAll h i requests.toList st₁ with ⟨⟨⟩, st₂⟩ | ⟨e, st₂⟩ <;> rfl
  · rfl

/-- A pass that comes to its end went through all its parts. -/
theorem execute_ok {h : Host σ} {i : PassInput} {requests : Requests} {st last : PassState σ}
    (hd : i.program.discover i.settings = .ok requests) (hrun : execute h i st = .ok () last) :
    ∃ opened answered, prepare h i requests st = .ok () opened ∧
      answerAll h i requests.toList opened = .ok () answered ∧
        deliverExtensions h i answered = .ok () last := by
  rw [execute_run h i hd] at hrun
  split at hrun
  · next opened hprepare =>
    split at hrun
    · next answered hanswers => exact ⟨opened, answered, hprepare, hanswers, hrun⟩
    · cases hrun
  · cases hrun

theorem execute_run_of_error {e : PassError} (hd : i.program.discover i.settings = .error e)
    (st : PassState σ) :
    execute h i st = .error e st := by
  unfold execute
  rw [hd]
  rfl

end PassStep

/-! ## Ends of passes -/

namespace PassState

variable {σ : Type} (st : PassState σ)

/-- What a pass reports at its end. -/
def report : PassReport where
  outcome := .completed
  units := st.units
  diagnostics := st.diagnostics
  metrics := st.metrics

/-- The event that a pass ends with. -/
def ending : PassEvent :=
  .completed st.units.length st.diagnostics.length st.metrics.timing.totalTime

end PassState

namespace PassInput

open PassStep

variable {σ : Type} {h : Host σ} {i : PassInput} {start : σ} {st : PassState σ}

/-- A pass that comes to its end reports what its last state holds, and tells of the end. -/
theorem run_of_ok (hx : execute h i { host := start } = .ok () st) :
    i.run h start =
      ⟨.ok st.report, h.notify st.ending st.host, st.transcript ++ [.told st.ending]⟩ := by
  have hsteps : i.steps h { host := start } = .ok st.report (st.told h st.ending) := by
    simp only [steps, tryCatch, tryCatchThe, MonadExceptOf.tryCatch, EStateM.tryCatch,
      SeqRight.seqRight, EStateM.seqRight, hx]
    rfl
  rw [run, hsteps]
  rfl

theorem steps_of_error {e : PassError} (hx : execute h i { host := start } = .error e st) :
    i.steps h { host := start } = abandon h e st := by
  simp only [steps, tryCatch, tryCatchThe, MonadExceptOf.tryCatch, EStateM.tryCatch,
    SeqRight.seqRight, EStateM.seqRight, hx]
  rfl

/-- A pass that is ended early tells of nothing but its cancellation. -/
theorem run_of_error {e : PassError} (hx : execute h i { host := start } = .error e st) :
    (i.run h start).outcome = .error e ∧ ∃ part,
      (i.run h start).transcript = st.transcript ++ part ∧
      (part = [] ∨ part = [.told (.cancelled st.processed)]) := by
  rw [run, steps_of_error hx]
  cases e with
  | missingHolder name => exact ⟨rfl, [], (List.append_nil _).symm, .inl rfl⟩
  | cancelled => exact ⟨rfl, _, rfl, .inr rfl⟩

/-- Where a pass is stopped, the last that it tells is how many requests it has answered. -/
theorem run_of_cancelled (hx : execute h i { host := start } = .error .cancelled st) :
    i.run h start = ⟨.error .cancelled, h.notify (.cancelled st.processed) st.host,
      st.transcript ++ [.told (.cancelled st.processed)]⟩ := by
  rw [run, steps_of_error hx]
  rfl

/-- After the last step of a pass nothing is delivered or reported. -/
theorem transcript_run (h : Host σ) (i : PassInput) (start : σ) :
    ∃ part, (i.run h start).transcript =
        (stateAfter (execute h i) { host := start }).transcript ++ part ∧
      part.taken = [] ∧ part.diagnostics = [] := by
  rcases hx : execute h i { host := start } with ⟨⟨⟩, st⟩ | ⟨e, st⟩
  · rw [run_of_ok hx, stateAfter_ok hx]
    exact ⟨_, rfl, rfl, rfl⟩
  · obtain ⟨-, part, htranscript, rfl | rfl⟩ := run_of_error hx
    · exact ⟨[], stateAfter_error hx ▸ htranscript, rfl, rfl⟩
    · exact ⟨_, stateAfter_error hx ▸ htranscript, rfl, rfl⟩

theorem taken_run (h : Host σ) (i : PassInput) (start : σ) : (i.run h start).transcript.taken =
    (stateAfter (execute h i) { host := start }).transcript.taken := by
  obtain ⟨part, htranscript, htaken, -⟩ := transcript_run h i start
  rw [htranscript, Transcript.taken_append, htaken, List.append_nil]

theorem diagnostics_run (h : Host σ) (i : PassInput) (start : σ) :
    (i.run h start).transcript.diagnostics =
      (stateAfter (execute h i) { host := start }).transcript.diagnostics := by
  obtain ⟨part, htranscript, -, hdiagnostics⟩ := transcript_run h i start
  rw [htranscript, Transcript.diagnostics_append, hdiagnostics, List.append_nil]

theorem execute_of_run {report : PassReport} (hrun : (i.run h start).outcome = .ok report) :
    ∃ st, execute h i { host := start } = .ok () st ∧ report.diagnostics = st.diagnostics := by
  rcases hx : execute h i { host := start } with ⟨⟨⟩, st⟩ | ⟨e, st⟩
  · rw [run_of_ok hx] at hrun
    cases hrun
    exact ⟨st, rfl, rfl⟩
  · rw [(run_of_error hx).1] at hrun
    cases hrun

end PassInput

end EventWrap
