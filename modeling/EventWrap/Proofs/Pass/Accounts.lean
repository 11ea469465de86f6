import EventWrap.Host.Memory
import EventWrap.Proofs.Pass.Changes
import EventWrap.Proofs.Pass.Requests
import EventWrap.Proofs.Pass.Tallies

/-!
# The accounts of a pass

A pass keeps what it did in several places: the units and diagnostics of its report, the counters of
its metrics, the factory methods and the transcript of what its host was asked and told. Refusals
change some of them and not others. At the end of every pass, over any host, all of them agree.
-/

namespace EventWrap

variable {σ : Type}

open PassStep

/-! ## What is counted -/

namespace UnitKind

def mode? : UnitKind → Option WrapperMode
  | wrapper _ mode _ => some mode
  | _ => none

/-- The events that a wrapper unit wraps. -/
def events : UnitKind → List String
  | wrapper _ _ events => events
  | _ => []

end UnitKind

/-- The entry that a report has for a unit that was taken. -/
def Delivery.entry (u : Delivery) : GeneratedUnit := ⟨u.hintName, u.kind, u.text.utf8ByteSize⟩

/-- The numbers that metrics are to have for some units. -/
def OutputCounts.ofUnits (units : List GeneratedUnit) : OutputCounts where
  instanceWrappers := units.countP (·.kind.mode? = some .ofInstance)
  staticWrappers := units.countP (·.kind.mode? = some .ofStatics)
  eventsWrapped := (units.map (·.kind.events.length)).sum
  factoryMethods := units.countP (·.kind.mode? = some .ofInstance)
  sourceUnits := units.length
  totalBytes := (units.map (·.bytes)).sum

namespace OutputCounts

variable {units : List GeneratedUnit} {u : GeneratedUnit}

theorem ofUnits_of_not_wrapper (h : u.kind.isWrapper = false) :
    ofUnits (units ++ [u]) =
      { ofUnits units with
        sourceUnits := (ofUnits units).sourceUnits + 1
        totalBytes := (ofUnits units).totalBytes + u.bytes } := by
  have hnone : u.kind.mode? = none ∧ u.kind.events = [] := by
    cases hu : u.kind with
    | wrapper source mode events => simp [hu, UnitKind.isWrapper] at h
    | extensions factories => exact ⟨rfl, rfl⟩
    | bootstrap => exact ⟨rfl, rfl⟩
  simp [ofUnits, hnone.1, hnone.2]

theorem ofUnits_of_wrapper {source : String} {mode : WrapperMode} {events : List String}
    (h : u.kind = .wrapper source mode events) :
    ofUnits (units ++ [u]) =
      { instanceWrappers := (ofUnits units).instanceWrappers + if mode = .ofInstance then 1 else 0
        staticWrappers := (ofUnits units).staticWrappers + if mode = .ofStatics then 1 else 0
        eventsWrapped := (ofUnits units).eventsWrapped + events.length
        factoryMethods := (ofUnits units).factoryMethods + if mode = .ofInstance then 1 else 0
        sourceUnits := (ofUnits units).sourceUnits + 1
        totalBytes := (ofUnits units).totalBytes + u.bytes } := by
  cases mode <;> simp [ofUnits, h, UnitKind.mode?, UnitKind.events]

end OutputCounts

/-- The numbers that metrics are to have for some requests. -/
def RequestCounts.ofRequests (requests : Requests) : RequestCounts where
  ofInstances := requests.ofInstances.length
  ofStatics := requests.ofStatics.length
  duplicates := requests.repeated.length

/-- Every diagnostic was counted once by its severity and once by its id. -/
structure DiagnosticCounts.Count (counts : DiagnosticCounts) (number : Nat) : Prop where
  severities : counts.info + counts.warnings + counts.errors = number
  byId : counts.byId.total = number
  ascending : counts.byId.Ascending

theorem DiagnosticCounts.Count.recordDiagnostic {m : Metrics} {number : Nat}
    (h : m.diagnostics.Count number) (id : String) (severity : Severity) :
    (m.recordDiagnostic id severity).diagnostics.Count (number + 1) := by
  have hseverities := h.severities
  have hbyId : (m.diagnostics.byId.increment id).total = number + 1 := by
    rw [h.ascending.total_increment, h.byId]
  have hascending : (m.diagnostics.byId.increment id).Ascending := h.ascending.insert _ _
  cases severity with
  | info => exact ⟨by simp only [Metrics.recordDiagnostic]; omega, hbyId, hascending⟩
  | warning => exact ⟨by simp only [Metrics.recordDiagnostic]; omega, hbyId, hascending⟩
  | error => exact ⟨by simp only [Metrics.recordDiagnostic]; omega, hbyId, hascending⟩

@[simp] theorem Metrics.recordDiagnostic_output (m : Metrics) (id : String) (severity : Severity) :
    (m.recordDiagnostic id severity).output = m.output := by
  cases severity <;> rfl

@[simp] theorem Metrics.recordDiagnostic_requests (m : Metrics) (id : String)
    (severity : Severity) : (m.recordDiagnostic id severity).requests = m.requests := by
  cases severity <;> rfl

/-! ## Accounts -/

namespace PassState

/-- The records of a pass agree with its transcript and with each other. -/
structure Accounts (st : PassState σ) : Prop where
  units : st.units = st.transcript.taken.map Delivery.entry
  diagnostics : st.diagnostics = st.transcript.diagnostics
  output : st.metrics.output = .ofUnits st.units
  factories : st.metrics.output.factoryMethods = st.factories.length
  counts : st.metrics.diagnostics.Count st.diagnostics.length

namespace Accounts

variable {h : Host σ} {i : PassInput} {st : PassState σ}

theorem initial (start : σ) : Accounts { host := start } where
  units := rfl
  diagnostics := rfl
  output := rfl
  factories := rfl
  counts := ⟨rfl, rfl, List.Pairwise.nil⟩

theorem told (hst : st.Accounts) (e : PassEvent) : (st.told h e).Accounts where
  units := by simp [PassState.told, hst.units]
  diagnostics := by simp [PassState.told, hst.diagnostics]
  output := hst.output
  factories := hst.factories
  counts := hst.counts

/-- Requests are counted apart from all else. -/
theorem recorded (hst : st.Accounts) {change : Metrics → Metrics}
    (houtput : (change st.metrics).output = st.metrics.output)
    (hdiagnostics : (change st.metrics).diagnostics = st.metrics.diagnostics) :
    (st.recorded change).Accounts where
  units := hst.units
  diagnostics := hst.diagnostics
  output := houtput.trans hst.output
  factories := (congrArg _ houtput).trans hst.factories
  counts := hdiagnostics ▸ hst.counts

theorem reported (hst : st.Accounts) (d : Diagnostic) : (st.reported h d).Accounts where
  units := by
    rw [reported_transcript, Transcript.taken_append]
    exact hst.units.trans (List.append_nil _ ▸ rfl)
  diagnostics := by
    rw [reported_transcript, Transcript.diagnostics_append, ← hst.diagnostics]
    rfl
  output := by
    rw [reported_metrics, Metrics.recordDiagnostic_output]
    exact hst.output
  factories := by
    rw [reported_metrics, Metrics.recordDiagnostic_output]
    exact hst.factories
  counts := by
    rw [reported_metrics, reported_diagnostics, List.length_append]
    exact hst.counts.recordDiagnostic d.id d.severity

theorem refused (hst : st.Accounts) {u : Delivery} {e : HostError}
    (hu : st.answerTo h u = .error e) : (st.offered h u).Accounts where
  units := by simp [offered, hu, hst.units]
  diagnostics := by simp [offered, hst.diagnostics]
  output := hst.output
  factories := hst.factories
  counts := hst.counts

theorem units_stored (hst : st.Accounts) {u : Delivery} (hu : st.answerTo h u = .ok ()) :
    (st.stored h u).units = (st.stored h u).transcript.taken.map Delivery.entry := by
  rw [stored_taken hu, List.map_append, ← hst.units]
  rfl

theorem diagnostics_stored (hst : st.Accounts) {u : Delivery} (hu : st.answerTo h u = .ok ()) :
    st.diagnostics = (st.stored h u).transcript.diagnostics := by
  rw [stored_transcript hu, Transcript.diagnostics_append]
  exact hst.diagnostics.trans (List.append_nil _ ▸ rfl)

/-- A unit that is no wrapper was taken. -/
theorem stored (hst : st.Accounts) {u : Delivery} (hkind : u.kind.isWrapper = false)
    (hu : st.answerTo h u = .ok ()) : (st.stored h u).Accounts where
  units := hst.units_stored hu
  diagnostics := hst.diagnostics_stored hu
  output := by
    rw [stored_units, OutputCounts.ofUnits_of_not_wrapper hkind, ← hst.output]
    rfl
  factories := hst.factories
  counts := hst.counts

/-- A wrapper was delivered. -/
theorem delivered (hst : st.Accounts) {location : Location} {w : Wrapper}
    (hu : st.answerTo h (unitOf i location w) = .ok ()) :
    ((st.stored h (unitOf i location w)).entered h i w).Accounts where
  units := by
    rw [entered_units, entered_transcript, Transcript.taken_append, hst.units_stored hu]
    simp
  diagnostics := by
    rw [entered_diagnostics, entered_transcript, Transcript.diagnostics_append,
      ← hst.diagnostics_stored hu]
    simp
  output := by
    rw [entered_units, entered_metrics, stored_metrics, stored_units,
      OutputCounts.ofUnits_of_wrapper rfl, ← hst.output]
    cases hm : w.mode <;> rfl
  factories := by
    rw [entered_factories, entered_metrics, stored_factories, stored_metrics, List.length_append,
      ← hst.factories, Program.factory?]
    cases hm : w.mode <;> rfl
  counts := by
    rw [entered_diagnostics, entered_metrics]
    have hcounts : st.metrics.diagnostics.Count st.diagnostics.length := hst.counts
    cases hm : w.mode <;> exact hcounts

end Accounts

theorem kept_accounts (h : Host σ) (i : PassInput) : Kept h i Accounts where
  change {st st'} hchange hst := by
    cases hchange with
    | failed => exact hst.told _
    | reported d => exact hst.reported d
    | refused hu => exact hst.refused hu
    | delivered hfree hu => exact hst.delivered hu
  counted hst := ⟨hst.units, hst.diagnostics, hst.output, hst.factories, hst.counts⟩

theorem Accounts.announced {h : Host σ} {i : PassInput} {st : PassState σ} (hst : st.Accounts)
    (requests : Requests) : (st.announced h i requests).Accounts := by
  refine announced_induction (fun {st mode} hst => hst.recorded ?_ ?_) (fun hst => ?_)
    (fun hst => hst.told _) hst
  · cases mode <;> rfl
  · cases mode <;> rfl
  · exact (hst.recorded rfl rfl).told _

/-! ## Counted requests -/

theorem requests_requested (requests : List Request) (st : PassState σ) :
    (requests.foldl (fun st r => st.recorded (·.recordRequest r.mode)) st).metrics.requests =
      { st.metrics.requests with
        ofInstances := st.metrics.requests.ofInstances + requests.countP (·.mode = .ofInstance)
        ofStatics := st.metrics.requests.ofStatics + requests.countP (·.mode = .ofStatics) } := by
  induction requests generalizing st with
  | nil => rfl
  | cons r rest ih =>
    rw [List.foldl_cons, ih]
    cases hm : r.mode <;> simp [recorded, Metrics.recordRequest, hm] <;> omega

theorem requests_repeated (h : Host σ) (i : PassInput) (requests : List Request)
    (st : PassState σ) :
    (requests.foldl (repeated h i) st).metrics.requests =
      { st.metrics.requests with
        duplicates := st.metrics.requests.duplicates + requests.length } := by
  induction requests generalizing st with
  | nil => rfl
  | cons r rest ih =>
    rw [List.foldl_cons, ih]
    simp [repeated, told, recorded, Metrics.recordDuplicate]
    omega

/-- What was discovered was counted, list by list. -/
theorem requests_announced (h : Host σ) {i : PassInput} (start : σ) {requests : Requests}
    (hd : i.program.discover i.settings = .ok requests) :
    (PassState.announced h i requests { host := start }).metrics.requests =
      .ofRequests requests := by
  have hinstances : ∀ r ∈ requests.ofInstances, r.mode = .ofInstance :=
    fun r hr => Program.mode_of_mem_ofInstances hd hr
  have hstatics : ∀ r ∈ requests.ofStatics, r.mode = .ofStatics :=
    fun r hr => Program.mode_of_mem_ofStatics hd hr
  have hinstance : requests.toList.countP (·.mode = .ofInstance) = requests.ofInstances.length := by
    rw [Requests.toList, List.countP_append, List.countP_eq_zero.2, List.countP_eq_length.2]
    · exact Nat.zero_add _
    · simpa using hinstances
    · simpa using fun r hr => by rw [hstatics r hr]; decide
  have hstatic : requests.toList.countP (·.mode = .ofStatics) = requests.ofStatics.length := by
    rw [Requests.toList, List.countP_append, List.countP_eq_length.2, List.countP_eq_zero.2]
    · rfl
    · simpa using fun r hr => by rw [hinstances r hr]; decide
    · simpa using hstatics
  rw [announced, told, requests_repeated, requested, requests_requested, hinstance, hstatic]
  simp [RequestCounts.ofRequests]

theorem kept_requests (h : Host σ) (i : PassInput) (counts : RequestCounts) :
    Kept h i fun st => st.metrics.requests = counts where
  change {st st'} hchange hst := by
    cases hchange with
    | failed => exact hst
    | reported d => rw [reported_metrics, Metrics.recordDiagnostic_requests, hst]
    | refused => exact hst
    | @delivered location w =>
      rw [entered_metrics]
      cases hm : w.mode <;> exact hst
  counted hst := hst

end PassState

/-! ## Whole passes -/

/-- A report agrees with what the pass asked of its host, and its metrics agree with it. -/
structure PassReport.AgreesWith (report : PassReport) (i : PassInput)
    (t : Transcript) : Prop where
  units : report.units = t.taken.map Delivery.entry
  diagnostics : report.diagnostics = t.diagnostics
  output : report.metrics.output = .ofUnits report.units
  extensions : ∀ u ∈ report.units, ∀ n, u.kind = .extensions n →
    n = report.metrics.output.factoryMethods
  requests : ∃ requests, i.program.discover i.settings = .ok requests ∧
    report.metrics.requests = .ofRequests requests
  counts : report.metrics.diagnostics.Count report.diagnostics.length

namespace PassInput

open PassState

variable {h : Host σ} {i : PassInput} {start : σ} {st : PassState σ}

/-- The number that the unit of the extensions carries is that of the factory methods. -/
theorem extensions_of_execute {requests : Requests}
    (hd : i.program.discover i.settings = .ok requests)
    (hx : execute h i { host := start } = .ok () st) :
    ∀ u ∈ st.transcript.taken, ∀ n, u.kind = .extensions n → n = st.factories.length := by
  obtain ⟨opened, answered, hprepare, hanswers, hclosed⟩ := execute_ok hd hx
  have hlacks : answered.LacksExtensions :=
    stateAfter_ok ((upTo_of_prepare hprepare _).trans hanswers) ▸
      lacksExtensions_upTo h i start requests requests.toList
  intro u hu n hn
  rcases stored_or_changes_of_deliverExtensions h i answered with
    ⟨text, hanswer, hstored⟩ | hchanges
  · rw [hclosed] at hstored
    cases hstored
    rw [stored_taken hanswer] at hu
    rcases List.mem_append.1 hu with hu | hu
    · exact absurd hn (hlacks u hu n)
    · rw [List.mem_singleton.1 hu] at hn
      exact (UnitKind.extensions.inj hn).symm
  · rw [stateAfter_ok hclosed] at hchanges
    exact absurd hn ((kept_lacksExtensions h i).changes hchanges hlacks u hu n)

/-- At the end of a pass its accounts agree, and its requests are counted as discovered. -/
theorem accounts_of_execute {requests : Requests}
    (hd : i.program.discover i.settings = .ok requests)
    (hx : execute h i { host := start } = .ok () st) :
    st.Accounts ∧ st.metrics.requests = .ofRequests requests := by
  have hannounced := (Accounts.initial start).announced (h := h) (i := i) requests
  have haccounts := (kept_accounts h i).execute hd (fun hkind _ hu hst => hst.stored hkind hu)
    hannounced
  have hrequests := (kept_requests h i _).execute hd (fun _ _ _ hst => hst)
    (requests_announced h start hd)
  rw [stateAfter_ok hx] at haccounts hrequests
  exact ⟨haccounts, hrequests⟩

/-- The report of a pass that comes to its end, its metrics and the transcript of all that its host
was asked and told agree, whatever the host does. -/
theorem report_agrees (i : PassInput) (h : Host σ) (start : σ) {report : PassReport}
    (hrun : (i.run h start).outcome = .ok report) :
    (i.run h start).transcript.IsConversation h start ∧
      (i.run h start).host = h.after start (i.run h start).transcript ∧
      report.AgreesWith i (i.run h start).transcript := by
  rcases hx : execute h i { host := start } with ⟨⟨⟩, st⟩ | ⟨e, st⟩
  swap
  · rw [(run_of_error hx).1] at hrun
    cases hrun
  rcases hd : i.program.discover i.settings with e | requests
  · rw [execute_run_of_error h i hd] at hx
    cases hx
  obtain ⟨hanswers, hhost⟩ := follows_run h i start
  obtain ⟨haccounts, hrequests⟩ := accounts_of_execute hd hx
  refine ⟨hanswers, hhost, ?_⟩
  rw [run_of_ok hx] at hrun ⊢
  cases hrun
  refine ⟨?_, ?_, haccounts.output, ?_, ⟨requests, hd, hrequests⟩,
    haccounts.counts⟩
  · rw [Transcript.taken_append, Transcript.taken_told, List.append_nil]
    exact haccounts.units
  · rw [Transcript.diagnostics_append, Transcript.diagnostics_told, List.append_nil]
    exact haccounts.diagnostics
  · intro u hu n hn
    rw [PassState.report, haccounts.units] at hu
    obtain ⟨v, hv, rfl⟩ := List.mem_map.1 hu
    exact (extensions_of_execute hd hx v hv n hn).trans haccounts.factories.symm

theorem controls_report_agrees :
    ∃ report, ((Program.controls.pass {}).run MemoryHost.host {}).outcome = .ok report ∧
      report.AgreesWith (Program.controls.pass {})
        ((Program.controls.pass {}).run MemoryHost.host {}).transcript := by
  have hends : ((Program.controls.pass {}).run MemoryHost.host {}).outcome.toOption.isSome := by
    decide +kernel
  cases hrun : ((Program.controls.pass {}).run MemoryHost.host {}).outcome with
  | error e => simp [hrun, Except.toOption] at hends
  | ok report =>
    exact ⟨report, rfl, (report_agrees (Program.controls.pass {}) MemoryHost.host {} hrun).2.2⟩

end PassInput

end EventWrap
