import EventWrap.Proofs.Pass.Accounts
import EventWrap.Proofs.Pass.Cancellation
import EventWrap.Proofs.Pass.Progress

/-!
# Traces

The trace of a pass are the events that it tells, in order. A pass that knows its requests tells of
the repeated ones, of its start, of what happens to units, diagnostics and types, and of its end,
whatever its host does. The events of units and diagnostics are those that the host took and was
given. A pass without a holder tells nothing.
-/

namespace EventWrap

variable {σ : Type}

open PassStep

/-! ## Events by what they tell of -/

namespace PassEvent

/-- Events between the start and the end of a pass. -/
def isInner : PassEvent → Bool
  | .sourceAdded .. => true
  | .wrapperGenerated .. => true
  | .diagnosticReported _ => true
  | .typeFailed .. => true
  | _ => false

/-- The unit that an event tells of, by hint name and size. -/
def source? : PassEvent → Option (String × Nat)
  | .sourceAdded hintName bytes => some (hintName, bytes)
  | _ => none

def diagnostic? : PassEvent → Option Diagnostic
  | .diagnosticReported d => some d
  | _ => none

end PassEvent

/-- Every wrapper is told of right after the unit of its file. -/
def WrappersFollowSources (events : List PassEvent) : Prop :=
  ∀ before typeName mode fileName number after,
    events = before ++ .wrapperGenerated typeName mode fileName number :: after →
      ∃ earlier bytes, before = earlier ++ [.sourceAdded fileName bytes]

namespace WrappersFollowSources

variable {events later : List PassEvent}

theorem append (h : WrappersFollowSources events) (hlater : WrappersFollowSources later) :
    WrappersFollowSources (events ++ later) := by
  intro before typeName mode fileName number after hsplit
  rcases List.append_eq_append_iff.1 hsplit with ⟨middle, rfl, hmiddle⟩ | ⟨middle, hmiddle, hrest⟩
  · obtain ⟨earlier, bytes, rfl⟩ := hlater _ _ _ _ _ _ hmiddle
    exact ⟨events ++ earlier, bytes, (List.append_assoc _ _ _).symm⟩
  · cases middle with
    | nil =>
      -- the wrapper is the first of the later events, which nothing comes before
      obtain ⟨earlier, bytes, hnil⟩ := hlater [] _ _ _ _ _ hrest.symm
      simp at hnil
    | cons e middle =>
      obtain ⟨rfl, -⟩ := List.cons.inj hrest
      exact h _ _ _ _ _ _ hmiddle

/-- Events that tell of no wrapper. -/
theorem of_forall (h : ∀ e ∈ events, ∀ typeName mode fileName number,
    e ≠ .wrapperGenerated typeName mode fileName number) : WrappersFollowSources events := by
  rintro before typeName mode fileName number after rfl
  exact absurd rfl (h _ (List.mem_append_right _ List.mem_cons_self) _ _ _ _)

theorem pair (typeName : String) (mode : WrapperMode) (fileName : String) (number bytes : Nat) :
    WrappersFollowSources
      [.sourceAdded fileName bytes, .wrapperGenerated typeName mode fileName number] := by
  intro before typeName' mode' fileName' number' after hsplit
  match before, hsplit with
  | [e], hsplit =>
    obtain ⟨rfl, hrest⟩ := List.cons.inj hsplit
    obtain ⟨hwrapper, -⟩ := List.cons.inj hrest
    cases hwrapper
    exact ⟨[], bytes, rfl⟩
  | _ :: _ :: before, hsplit => simp at hsplit

end WrappersFollowSources

/-! ## Traced transcripts -/

namespace Transcript

/-- After the opening events come inner ones; they tell of the units that were taken and of the
diagnostics that were reported, each once and in order. -/
structure Traced (opening : List PassEvent) (t : Transcript) : Prop where
  inner : ∃ inner, t.events = opening ++ inner ∧ ∀ e ∈ inner, e.isInner = true
  sources : t.events.filterMap (·.source?) =
    t.taken.map fun u => (u.hintName, u.text.utf8ByteSize)
  diagnostics : t.events.filterMap (·.diagnostic?) = t.diagnostics
  wrappers : WrappersFollowSources t.events

namespace Traced

variable {opening : List PassEvent} {t part : Transcript}

theorem append (ht : t.Traced opening) (hpart : part.Traced []) : (t ++ part).Traced opening where
  inner := by
    obtain ⟨inner, hevents, hinner⟩ := ht.inner
    obtain ⟨later, hlater, hall⟩ := hpart.inner
    refine ⟨inner ++ later, ?_, fun e he => (List.mem_append.1 he).elim (hinner e) (hall e)⟩
    rw [events_append, hevents, hlater, List.nil_append, List.append_assoc]
  sources := by
    rw [events_append, List.filterMap_append, ht.sources, hpart.sources, taken_append,
      List.map_append]
  diagnostics := by
    rw [events_append, List.filterMap_append, ht.diagnostics, hpart.diagnostics,
      diagnostics_append]
  wrappers := by
    rw [events_append]
    exact ht.wrappers.append hpart.wrappers

theorem failed (typeName message : String) : Traced [] [.told (.typeFailed typeName message)] where
  inner := ⟨_, rfl, List.forall_mem_singleton.2 rfl⟩
  sources := rfl
  diagnostics := rfl
  wrappers := .of_forall (by simp)

theorem reported (d : Diagnostic) : Traced [] [.told (.diagnosticReported d), .reported d] where
  inner := ⟨[.diagnosticReported d], rfl, List.forall_mem_singleton.2 rfl⟩
  sources := rfl
  diagnostics := rfl
  wrappers := .of_forall (by simp [events])

theorem refused (u : Delivery) (e : HostError) : Traced [] [.offered u (.error e)] where
  inner := ⟨[], rfl, by simp⟩
  sources := rfl
  diagnostics := rfl
  wrappers := .of_forall (by simp)

theorem stored (u : Delivery) :
    Traced [] [.offered u (.ok ()), .told (.sourceAdded u.hintName u.text.utf8ByteSize)] where
  inner := ⟨[.sourceAdded u.hintName u.text.utf8ByteSize], rfl, List.forall_mem_singleton.2 rfl⟩
  sources := rfl
  diagnostics := rfl
  wrappers := .of_forall (by simp [events])

/-- A unit was taken, and the wrapper in it was entered. -/
theorem delivered (u : Delivery) (typeName : String) (mode : WrapperMode) (number : Nat) :
    Traced [] [.offered u (.ok ()), .told (.sourceAdded u.hintName u.text.utf8ByteSize),
      .told (.wrapperGenerated typeName mode u.hintName number)] where
  inner := ⟨[.sourceAdded u.hintName u.text.utf8ByteSize,
    .wrapperGenerated typeName mode u.hintName number], rfl,
    List.forall_mem_cons.2 ⟨rfl, List.forall_mem_singleton.2 rfl⟩⟩
  sources := rfl
  diagnostics := rfl
  wrappers := .pair typeName mode u.hintName number u.text.utf8ByteSize

end Traced

end Transcript

/-! ## While a pass runs -/

/-- What a pass tells before it answers the first request. -/
def PassInput.opening (i : PassInput) (requests : Requests) : List PassEvent :=
  requests.repeated.map (fun r => .deduplicated (i.program.qualifiedName r.type) r.mode) ++
    [.started requests.ofInstances.length requests.ofStatics.length]

namespace PassState

variable {h : Host σ} {i : PassInput} {st : PassState σ}

theorem kept_traced (h : Host σ) (i : PassInput) (opening : List PassEvent) :
    Kept h i fun st => st.transcript.Traced opening where
  change {st st'} hchange hst := by
    cases hchange with
    | failed typeName message => exact hst.append (.failed typeName message)
    | reported d =>
      rw [reported_transcript]
      exact hst.append (.reported d)
    | @refused u e hu =>
      rw [offered, hu]
      exact hst.append (.refused u e)
    | @delivered location w hfree hu =>
      rw [entered_transcript, stored_transcript hu, List.append_assoc]
      exact hst.append (.delivered _ _ _ _)
  counted hst := hst

/-- Counting the requests tells nothing, and each repeated one is told of. -/
theorem transcript_announced (h : Host σ) (i : PassInput) (requests : Requests) (start : σ) :
    (PassState.announced h i requests { host := start }).transcript =
      (i.opening requests).map .told := by
  have hrequested : ∀ (rs : List Request) (st : PassState σ),
      (rs.foldl (fun st r => st.recorded (·.recordRequest r.mode)) st).transcript =
        st.transcript := by
    intro rs
    induction rs with
    | nil => exact fun _ => rfl
    | cons r rest ih => exact fun st => ih _
  have hrepeated : ∀ (rs : List Request) (st : PassState σ),
      (rs.foldl (repeated h i) st).transcript = st.transcript ++
        rs.map fun r => .told (.deduplicated (i.program.qualifiedName r.type) r.mode) := by
    intro rs
    induction rs with
    | nil => exact fun _ => (List.append_nil _).symm
    | cons r rest ih =>
      intro st
      rw [List.foldl_cons, ih, List.map_cons]
      simp [repeated, told, recorded]
  rw [announced, told, hrepeated, requested, hrequested, PassInput.opening, List.map_append,
    List.map_map]
  rfl

theorem traced_announced (h : Host σ) (i : PassInput) (requests : Requests) (start : σ) :
    (PassState.announced h i requests { host := start }).transcript.Traced
      (i.opening requests) := by
  have hevents : Transcript.events ((i.opening requests).map .told) = i.opening requests := by
    simp [Transcript.events, List.filterMap_map]
  rw [transcript_announced]
  refine ⟨⟨[], by rw [hevents, List.append_nil], by simp⟩, ?_, ?_, ?_⟩
  · rw [hevents]
    simp [PassInput.opening, PassEvent.source?, Transcript.taken, Exchange.taken?]
  · rw [hevents]
    simp [PassInput.opening, PassEvent.diagnostic?, Transcript.diagnostics, Exchange.reported?]
  · rw [hevents]
    apply WrappersFollowSources.of_forall
    simp only [PassInput.opening, List.mem_append, List.mem_map, List.mem_singleton]
    rintro e (⟨r, -, rfl⟩ | rfl) <;> simp

theorem traced_execute (h : Host σ) (start : σ) {requests : Requests}
    (hd : i.program.discover i.settings = .ok requests) :
    (stateAfter (execute h i) { host := start }).transcript.Traced (i.opening requests) := by
  refine (kept_traced h i _).execute hd (fun {st u} _ _ hu hst => ?_)
    (traced_announced h i requests start)
  rw [stored_transcript hu]
  exact hst.append (.stored u)

end PassState

namespace PassStep

/-- Answering requests stops early only when the pass is cancelled. -/
theorem eq_cancelled_of_answerAll_error {h : Host σ} {i : PassInput}
    {requests : List Request} {e : PassError} {st last : PassState σ}
    (hrun : answerAll h i requests st = .error e last) : e = .cancelled := by
  induction requests generalizing st with
  | nil => cases hrun
  | cons r rest ih =>
    rw [answerAll_cons_run] at hrun
    split at hrun
    · cases hrun
      rfl
    · have hanswered := answer_cases h i r st
      rcases hr : answer h i r st with ⟨⟨⟩, st'⟩ | ⟨e', st'⟩
      · rw [hr] at hrun
        exact ih hrun
      · rw [hr] at hrun hanswered
        cases hrun
        cases hanswered <;> rfl

end PassStep

/-! ## Whole passes -/

/-- A pass ends with telling of its end, and how many units were taken and diagnostics reported, or
of its cancellation. -/
def Transcript.EndsWith (t : Transcript) (ending : PassEvent) :
    Except PassError PassReport → Prop
  | .ok report => ending =
      .completed t.taken.length t.diagnostics.length report.metrics.timing.totalTime
  | .error .cancelled => ∃ processed, ending = .cancelled processed
  | .error (.missingHolder _) => False

/-- The trace of a pass with known requests, from its opening to its end. -/
structure PassResult.HasTrace (i : PassInput) (requests : Requests) (result : PassResult σ) :
    Prop where
  order : ∃ inner ending, result.transcript.events = i.opening requests ++ inner ++ [ending] ∧
    (∀ e ∈ inner, e.isInner = true) ∧ result.transcript.EndsWith ending result.outcome
  sources : result.transcript.events.filterMap (·.source?) =
    result.transcript.taken.map fun u => (u.hintName, u.text.utf8ByteSize)
  diagnostics : result.transcript.events.filterMap (·.diagnostic?) = result.transcript.diagnostics
  wrappers : WrappersFollowSources result.transcript.events

namespace PassInput

open PassState

variable {h : Host σ} {i : PassInput} {start : σ} {requests : Requests}

/-- A last event after a traced transcript. -/
theorem hasTrace_of_traced {t : Transcript} (ht : t.Traced (i.opening requests))
    {ending : PassEvent} (hending : ending.isEnding = true) {outcome : Except PassError PassReport}
    (hends : t.EndsWith ending outcome) (host : σ) :
    PassResult.HasTrace i requests ⟨outcome, host, t ++ [.told ending]⟩ := by
  obtain ⟨inner, hevents, hinner⟩ := ht.inner
  have hsource : ending.source? = none := by cases ending <;> first | rfl | cases hending
  have hdiagnostic : ending.diagnostic? = none := by cases ending <;> first | rfl | cases hending
  refine ⟨⟨inner, ending, ?_, hinner, ?_⟩, ?_, ?_, ?_⟩
  · rw [Transcript.events_append, hevents, Transcript.events_told]
  · cases outcome with
    | ok report => simpa [Transcript.EndsWith] using hends
    | error e => cases e <;> exact hends
  · rw [Transcript.events_append, Transcript.events_told, List.filterMap_append, ht.sources]
    simp [hsource]
  · rw [Transcript.events_append, Transcript.events_told, List.filterMap_append, ht.diagnostics]
    simp [hdiagnostic]
  · rw [Transcript.events_append, Transcript.events_told]
    refine ht.wrappers.append (.of_forall ?_)
    rintro e he typeName mode fileName number rfl
    rw [← List.mem_singleton.1 he] at hending
    cases hending

/-- A pass that knows its requests is ended early only when it is cancelled. -/
theorem eq_cancelled_of_execute_error (hd : i.program.discover i.settings = .ok requests)
    {e : PassError} {st : PassState σ} (hx : execute h i { host := start } = .error e st) :
    e = .cancelled := by
  rw [execute_run h i hd] at hx
  rcases prepare_cases h i requests { host := start } with
    ⟨opened, ds, hprepare, -⟩ | ⟨opened, hprepare, -⟩
  · simp only [hprepare] at hx
    rcases hanswers : answerAll h i requests.toList opened with ⟨⟨⟩, answered⟩ | ⟨e', answered⟩
    · simp only [hanswers] at hx
      rcases deliverExtensions_cases h i answered with
        ⟨closed, ds', hclosed, -⟩ | ⟨closed, hclosed, -⟩
      · cases hx.symm.trans hclosed
      · cases hx.symm.trans hclosed
        rfl
    · simp only [hanswers] at hx
      cases hx
      exact eq_cancelled_of_answerAll_error hanswers
  · simp only [hprepare] at hx
    cases hx
    rfl

/-- Every pass tells a well-formed trace, over any host and however it is cancelled. What it told
is what its host was told. Without a holder it tells nothing and asks its host for nothing. -/
theorem run_hasTrace (i : PassInput) (h : Host σ) (start : σ) :
    (i.run h start).transcript.IsConversation h start ∧
      (i.run h start).host = h.after start (i.run h start).transcript ∧
      match i.program.discover i.settings with
      | .error e => i.run h start = ⟨.error e, start, []⟩
      | .ok requests => (i.run h start).HasTrace i requests := by
  obtain ⟨hconversation, hhost⟩ := follows_run h i start
  refine ⟨hconversation, hhost, ?_⟩
  cases hd : i.program.discover i.settings with
  | error e =>
    obtain ⟨-, rfl⟩ := Program.discover_eq_error hd
    have hx := execute_run_of_error h i hd { host := start }
    simp only
    rw [run, steps_of_error hx]
    rfl
  | ok requests =>
    have htraced := traced_execute (h := h) start hd
    rcases hx : execute h i { host := start } with ⟨⟨⟩, st⟩ | ⟨e, st⟩
    · rw [stateAfter_ok hx] at htraced
      obtain ⟨haccounts, -⟩ := accounts_of_execute hd hx
      simp only
      rw [run_of_ok hx]
      refine hasTrace_of_traced htraced rfl ?_ _
      rw [Transcript.EndsWith, PassState.ending, haccounts.diagnostics, haccounts.units,
        List.length_map]
      rfl
    · obtain rfl := eq_cancelled_of_execute_error hd hx
      rw [stateAfter_error hx] at htraced
      have hends : st.transcript.EndsWith (.cancelled st.processed) (.error .cancelled) :=
        ⟨st.processed, rfl⟩
      simp only
      rw [run_of_cancelled hx]
      exact hasTrace_of_traced htraced rfl hends _

end PassInput

end EventWrap
