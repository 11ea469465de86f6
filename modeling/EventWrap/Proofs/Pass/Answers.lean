import EventWrap.Proofs.Pass.Progress
import EventWrap.Proofs.Pass.Requests
import EventWrap.Proofs.Pass.Steadiness

/-!
# Answers to requests

Over a host that never stops a pass, each request of a program is answered once. When its answer
ends, the wrapper that it asks for has been delivered, now or for an earlier request, or one
diagnostic was reported at its place. Besides these a pass reports only that the triggers or the
extensions were refused.
-/

namespace EventWrap

variable {σ : Type}

/-! ## A single answer -/

/-- The answer to a request reported nothing and left its wrapper delivered, or reported one
diagnostic at its place. -/
def Request.IsSettled (r : Request) (st st' : PassState σ) : Option Diagnostic → Prop
  | none =>
    st'.transcript.diagnostics = st.transcript.diagnostics ∧
      ∃ w ∈ st'.transcript.wrappers, w.source = r.type ∧ w.mode = r.mode
  | some d =>
    st'.transcript.diagnostics = st.transcript.diagnostics ++ [d] ∧
      d.location = r.location ∧ (d.id = "RXGEN001" ∨ d.id = "RXGEN003")

namespace PassStep

variable {h : Host σ} {p : Program} {s : Settings}

/-- The exposure of a state is that of the wrappers delivered so far. -/
def ExposesDelivered (st : PassState σ) : Prop := st.exposure = exposureOf st.transcript.wrappers

theorem ExposesDelivered.progress {i : PassInput} {st st' : PassState σ} {ws : List Wrapper}
    {ds : List Diagnostic}
    (hst : ExposesDelivered st) (hp : st.Progress i st' ws ds) : ExposesDelivered st' := by
  rw [ExposesDelivered, hp.exposure, hp.wrappers, exposureOf_append, hst]

/-- When all wrappers that a request needs are delivered, that of its own type is among them. -/
theorem exists_wrapper_of_needed {st st' : PassState σ} {r : Request} {ws : List Wrapper}
    {ds : List Diagnostic}
    (hst : ExposesDelivered st) (hneeded : p.wrappersFor? s st.exposure r = some ws)
    (hp : st.Progress (p.pass s) st' ws ds) :
    ∃ w ∈ st'.transcript.wrappers, w.source = r.type ∧ w.mode = r.mode := by
  cases hm : r.mode with
  | ofStatics =>
    simp only [Program.wrappersFor?, hm] at hneeded
    obtain ⟨w, hw, rfl⟩ := Option.map_eq_some_iff.1 hneeded
    obtain ⟨hsource, hmode⟩ := Program.mode_of_staticWrapper? hw
    refine ⟨w, ?_, hsource, hmode⟩
    rw [hp.wrappers]
    exact List.mem_append_right _ List.mem_cons_self
  | ofInstance =>
    simp only [Program.wrappersFor?, hm, Program.instanceWrappers?_eq] at hneeded
    split at hneeded
    · next hoffers =>
      cases hneeded
      have hlink : r.type ∈ p.links r.type := Program.mem_links.2 (.inl rfl)
      have hknown : ((exposureOf (p.linkWrappers s st.exposure (p.links r.type)) ++
        st.exposure).lookup r.type).isSome :=
        Program.lookup_linkWrappers_isSome
          (fun _ ha => Program.offers_of_mem_links hoffers ha) hlink
      rw [← hp.exposure, hst.progress hp] at hknown
      obtain ⟨w, hw, hmode, hsource⟩ := lookup_exposureOf_isSome.1 hknown
      exact ⟨w, hw, hsource, hmode⟩
    · cases hneeded

/-- An answer that comes to its end settles its request. -/
theorem isSettled_of_answer {st st' : PassState σ} {r : Request} (hst : ExposesDelivered st)
    (hrun : answer h (p.pass s) r st = .ok () st') :
    ∃ ws d, st.Progress (p.pass s) st' ws d.toList ∧ r.IsSettled st st' d := by
  have hcases := answer_cases h (p.pass s) r st
  rw [hrun] at hcases
  cases hcases with
  | delivered hneeded hp =>
    refine ⟨_, none, hp, ?_, exists_wrapper_of_needed hst hneeded hp⟩
    rw [hp.reportedToHost, List.append_nil]
  | conflict _ _ hp hid hloc => exact ⟨_, some _, hp, hp.reportedToHost, hloc, .inr hid⟩
  | nothing _ hp hid hloc => exact ⟨_, some _, hp, hp.reportedToHost, hloc, .inl hid⟩
  | failed hstopped =>
    rw [stopping?_pass] at hstopped
    cases hstopped

/-! ## All answers -/

/-- Requests that were answered in turn, with what each answer reported. -/
inductive Answers (h : Host σ) (i : PassInput) :
    PassState σ → List (Request × Option Diagnostic) → PassState σ → Prop
  | none {st : PassState σ} : Answers h i st [] st
  | one {st st' last : PassState σ} {r : Request} {d : Option Diagnostic}
      {rest : List (Request × Option Diagnostic)}
      (run : answer h i r st = .ok () st') (settled : r.IsSettled st st' d)
      (later : Answers h i st'.counted rest last) :
      Answers h i st ((r, d) :: rest) last

theorem exists_answers {calm : σ → Prop} (hh : h.Steady calm) (requests : List Request)
    {st : PassState σ} (hcalm : calm st.host) (hst : ExposesDelivered st) :
    ∃ last answers ws, answerAll h (p.pass s) requests st = .ok () last ∧ calm last.host ∧
      answers.map (·.1) = requests ∧ Answers h (p.pass s) st answers last ∧
      st.Progress (p.pass s) last ws (answers.filterMap (·.2)) := by
  induction requests generalizing st with
  | nil => exact ⟨st, [], [], rfl, hcalm, rfl, .none, .refl st⟩
  | cons r rest ih =>
    obtain ⟨⟨⟩, st', hrun, hcalm'⟩ := completes_answer hh r st hcalm
    obtain ⟨ws, d, hp, hsettled⟩ := isSettled_of_answer hst hrun
    have hcalm₁ : calm st'.counted.host := hcalm'
    obtain ⟨last, answers, ws', hlater, hcalm₂, hrequests, hanswers, hp'⟩ :=
      ih hcalm₁ (hst.progress hp.counted)
    refine ⟨last, (r, d) :: answers, ws ++ ws', ?_, hcalm₂, ?_, .one hrun hsettled hanswers, ?_⟩
    · rw [answerAll_cons_run, stops_pass, hh.running hcalm, hrun]
      exact hlater
    · rw [List.map_cons, hrequests]
    · have hall := hp.counted.trans hp'
      cases d <;> exact hall

/-! ## A whole pass -/

/-- No request is lost or answered twice. A pass over a host that never stops it comes to its end;
its requests are for distinct types and modes, each is settled by its answer, and what the pass
reports is what these answers do, after a refusal of the triggers and before one of the
extensions. -/
theorem every_request_settled_once {calm : σ → Prop} (hh : h.Steady calm) {start : σ}
    (hstart : calm start) {holder : TypeId} (hholder : p.resolve? s.holderName = some holder) :
    ∃ requests opened answered report opening answers closing,
      p.discover s = .ok requests ∧ (requests.toList.map Request.target).Nodup ∧
      ((p.pass s).run h start).outcome = .ok report ∧
      prepare h (p.pass s) requests { host := start } = .ok () opened ∧
      answers.map (·.1) = requests.toList ∧ Answers h (p.pass s) opened answers answered ∧
      report.diagnostics = opening ++ answers.filterMap (·.2) ++ closing ∧
      ((p.pass s).run h start).transcript.diagnostics = report.diagnostics ∧
      ReportsRefusalOf .bootstrap opened.transcript opening ∧
      ReportsRefusalOf (.extensions answered.factories.length)
        ((p.pass s).run h start).transcript closing := by
  obtain ⟨requests, hd⟩ := Program.exists_discover hholder
  have hprepare := prepare_cases h (p.pass s) requests { host := start }
  obtain ⟨⟨⟩, opened, hopened, hcalm⟩ :=
    completes_prepare (p := p) (s := s) hh requests { host := start } hstart
  rw [hopened] at hprepare
  rcases hprepare with ⟨_, opening, heq, hp, hopening⟩ | ⟨_, heq, -⟩
  swap
  · cases heq
  cases heq
  have hexposes : ExposesDelivered opened :=
    ExposesDelivered.progress (show ExposesDelivered { host := start } from rfl) hp
  obtain ⟨answered, answers, ws, hrun, hcalm', hrequests, hanswers, hp'⟩ :=
    exists_answers (p := p) (s := s) hh requests.toList hcalm hexposes
  have hextensions := deliverExtensions_cases h (p.pass s) answered
  obtain ⟨⟨⟩, closed, hclosed, -⟩ := completes_deliverExtensions (p := p) (s := s) hh answered hcalm'
  rw [hclosed] at hextensions
  rcases hextensions with ⟨_, closing, heq, hp'', hclosing⟩ | ⟨_, heq, -⟩
  swap
  · cases heq
  cases heq
  have hexecute : execute h (p.pass s) { host := start } = .ok () closed := by
    rw [execute_run h (p.pass s) hd, hopened]
    simp only [hrun, hclosed]
  have hall := (hp.trans hp').trans hp''
  refine ⟨requests, opened, answered, _, opening, answers, closing, hd, Program.nodup_targets hd,
    by rw [PassInput.run_of_ok hexecute], hopened, hrequests, hanswers, hall.diagnostics, ?_,
    hopening, ?_⟩
  · rw [PassInput.run_of_ok hexecute, Transcript.diagnostics_append, hall.reportedToHost,
      PassState.report, hall.diagnostics]
    exact List.append_nil _
  · rw [PassInput.run_of_ok hexecute]
    rcases hclosing with hnone | ⟨u, e, hk, hmem, hds⟩
    · exact .inl hnone
    · exact .inr ⟨u, e, hk, List.mem_append_left _ hmem, hds⟩

theorem controls_settled_once :
    ∃ opened answers answered, answers.map (·.1) = [⟨4, .ofInstance, {}⟩] ∧
      Answers MemoryHost.host (Program.controls.pass {}) opened answers answered := by
  have hholder : Program.controls.resolve? (Settings.holderName {}) = some 1 := by decide
  obtain ⟨requests, opened, answered, -, -, answers, -, hd, -, -, -, hrequests, hanswers, -⟩ :=
    every_request_settled_once MemoryHost.steady
      (show MemoryHost.isCancelled {} = false from rfl) hholder
  rw [Program.discover_controls] at hd
  cases hd
  exact ⟨opened, answers, answered, hrequests, hanswers⟩

end PassStep

end EventWrap
