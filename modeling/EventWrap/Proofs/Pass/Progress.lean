import EventWrap.Proofs.Pass.Effects
import EventWrap.Proofs.Wrapper.Chain

/-!
# Progress of a pass

Between two states of a pass some wrappers were delivered and some diagnostics reported, and the
records of the pass grew by exactly these. Delivering wrappers goes on up to the first that is not
taken; a request is answered by all its wrappers, or with one diagnostic at its place.
-/

namespace EventWrap

/-- Some wrappers were delivered and some diagnostics reported between two states. -/
structure PassState.Progress {σ : Type} (i : PassInput) (st st' : PassState σ) (ws : List Wrapper)
    (ds : List Diagnostic) : Prop where
  transcript : ∃ part, st'.transcript = st.transcript ++ part ∧ Transcript.wrappers part = ws ∧
    Transcript.diagnostics part = ds
  exposure : st'.exposure = exposureOf ws ++ st.exposure
  factories : st'.factories = st.factories ++ ws.filterMap (i.program.factory? i.settings)
  diagnostics : st'.diagnostics = st.diagnostics ++ ds

namespace PassState

variable {σ : Type} {h : Host σ} {i : PassInput} {st st' st'' : PassState σ}
  {ws ws' : List Wrapper} {ds ds' : List Diagnostic}

namespace Progress

theorem refl (st : PassState σ) : st.Progress i st [] [] where
  transcript := ⟨[], (List.append_nil _).symm, rfl, rfl⟩
  exposure := rfl
  factories := (List.append_nil _).symm
  diagnostics := (List.append_nil _).symm

theorem trans (first : st.Progress i st' ws ds) (second : st'.Progress i st'' ws' ds') :
    st.Progress i st'' (ws ++ ws') (ds ++ ds') where
  transcript := by
    obtain ⟨part, ht, hw, hd⟩ := first.transcript
    obtain ⟨part', ht', hw', hd'⟩ := second.transcript
    refine ⟨part ++ part', ?_, ?_, ?_⟩
    · rw [ht', ht, List.append_assoc]
    · rw [Transcript.wrappers_append, hw, hw']
    · rw [Transcript.diagnostics_append, hd, hd']
  exposure := by rw [second.exposure, first.exposure, exposureOf_append, List.append_assoc]
  factories := by rw [second.factories, first.factories, List.filterMap_append, List.append_assoc]
  diagnostics := by rw [second.diagnostics, first.diagnostics, List.append_assoc]

theorem wrappers (h : st.Progress i st' ws ds) :
    st'.transcript.wrappers = st.transcript.wrappers ++ ws := by
  obtain ⟨part, ht, hw, -⟩ := h.transcript
  rw [ht, Transcript.wrappers_append, hw]

theorem reportedToHost (h : st.Progress i st' ws ds) :
    st'.transcript.diagnostics = st.transcript.diagnostics ++ ds := by
  obtain ⟨part, ht, -, hd⟩ := h.transcript
  rw [ht, Transcript.diagnostics_append, hd]

end Progress

/-! ## The elementary steps -/

theorem progress_told (e : PassEvent) (st : PassState σ) : st.Progress i (st.told h e) [] [] where
  transcript := ⟨[.told e], rfl, rfl, rfl⟩
  exposure := rfl
  factories := (List.append_nil _).symm
  diagnostics := (List.append_nil _).symm

theorem progress_recorded (change : Metrics → Metrics) (st : PassState σ) :
    st.Progress i (st.recorded change) [] [] where
  transcript := ⟨[], (List.append_nil _).symm, rfl, rfl⟩
  exposure := rfl
  factories := (List.append_nil _).symm
  diagnostics := (List.append_nil _).symm

theorem Progress.counted (hp : st.Progress i st' ws ds) : st.Progress i st'.counted ws ds :=
  ⟨hp.transcript, hp.exposure, hp.factories, hp.diagnostics⟩

theorem Progress.of_counted (hp : st.counted.Progress i st' ws ds) : st.Progress i st' ws ds :=
  ⟨hp.transcript, hp.exposure, hp.factories, hp.diagnostics⟩

theorem progress_reported (d : Diagnostic) (st : PassState σ) :
    st.Progress i (st.reported h d) [] [d] where
  transcript := ⟨_, reported_transcript st d, rfl, rfl⟩
  exposure := rfl
  factories := (List.append_nil _).symm
  diagnostics := rfl

theorem progress_refused {u : Delivery} {e : HostError} (hu : st.answerTo h u = .error e) :
    st.Progress i (st.offered h u) [] [] where
  transcript := ⟨[.offered u (.error e)], by rw [offered, hu], rfl, rfl⟩
  exposure := rfl
  factories := (List.append_nil _).symm
  diagnostics := (List.append_nil _).symm

/-- A unit that holds no wrapper was taken. -/
theorem progress_stored {u : Delivery} (hu : st.answerTo h u = .ok ()) (hw : u.wrapper = none) :
    st.Progress i (st.stored h u) [] [] where
  transcript := by
    refine ⟨_, stored_transcript hu, ?_, rfl⟩
    simp [Transcript.wrappers, Transcript.taken, Exchange.taken?, hw]
  exposure := rfl
  factories := (List.append_nil _).symm
  diagnostics := (List.append_nil _).symm

/-- A wrapper was delivered. -/
theorem progress_entered {u : Delivery} {w : Wrapper} (hu : st.answerTo h u = .ok ())
    (hw : u.wrapper = some w) :
    st.Progress i ((st.stored h u).entered h i w) [w] [] where
  transcript := by
    refine ⟨_, by rw [entered_transcript, stored_transcript hu, List.append_assoc], ?_, rfl⟩
    simp [Transcript.wrappers, Transcript.taken, Exchange.taken?, hw]
  exposure := by
    rw [entered_exposure, stored_exposure]
    cases hm : w.mode with
    | ofInstance => rw [exposureOf_instance hm]; rfl
    | ofStatics => rw [exposureOf_static hm]; rfl
  factories := by
    rw [entered_factories, stored_factories]
    cases hf : i.program.factory? i.settings w <;> simp [hf]
  diagnostics := by rw [entered_diagnostics, stored_diagnostics, List.append_nil]

end PassState

namespace PassStep

open PassState

variable {σ : Type} {h : Host σ} {i : PassInput}

/-! ## Delivering -/

/-- A wrapper is delivered, or it is not taken and one conflict is reported, or the pass ends. -/
theorem deliver_cases (h : Host σ) (i : PassInput) (location : Location) (w : Wrapper)
    (st : PassState σ) :
    (∃ st', deliver h i location w st = .ok true st' ∧ st.Progress i st' [w] []) ∨
    (∃ st' d, deliver h i location w st = .ok false st' ∧ st.Progress i st' [] [d] ∧
      d.id = DiagnosticKind.outputConflict.id ∧ d.location = location) ∨
    (∃ st', deliver h i location w st = .error .cancelled st' ∧ st.Progress i st' [] [] ∧
      st.answerTo h (unitOf i location w) = .error .cancelled) := by
  cases hfree : st.owner? w with
  | some owner => exact .inr (.inl ⟨_, _, deliver_of_clash hfree, progress_reported _ st, rfl, rfl⟩)
  | none =>
    have hoffered : ∀ {e}, st.answerTo h (unitOf i location w) = .error e →
        st.Progress i (st.offered h (unitOf i location w)) [] [] := progress_refused
    rcases verdict_cases (st.answerTo h (unitOf i location w)) with hu | hu | ⟨e, hu, he⟩
    · exact .inl ⟨_, deliver_of_taken hfree hu, progress_entered hu rfl⟩
    · exact .inr (.inr ⟨_, deliver_of_cancelled hfree hu, hoffered hu, hu⟩)
    · exact .inr (.inl ⟨_, _, deliver_of_refused hfree hu he,
        (hoffered hu).trans (progress_reported _ _), rfl, rfl⟩)

/-- Of several wrappers a first part is delivered: all of them, or those before the one that is not
taken, or those before the end of the pass. -/
theorem deliverAll_cases (h : Host σ) (i : PassInput) (location : Location) (ws : List Wrapper)
    (st : PassState σ) :
    (∃ st', deliverAll h i location ws st = .ok () st' ∧ st.Progress i st' ws []) ∨
    (∃ st' done d, deliverAll h i location ws st = .ok () st' ∧ done <+: ws ∧
      st.Progress i st' done [d] ∧
      d.id = DiagnosticKind.outputConflict.id ∧ d.location = location) ∨
    (∃ st' done, deliverAll h i location ws st = .error .cancelled st' ∧ done <+: ws ∧
      st.Progress i st' done []) := by
  induction ws generalizing st with
  | nil => exact .inl ⟨st, rfl, .refl st⟩
  | cons w rest ih =>
    rw [deliverAll_cons_run]
    rcases deliver_cases h i location w st with
      ⟨st₁, hw, hp⟩ | ⟨st₁, d, hw, hp, hid, hloc⟩ | ⟨st₁, hw, hp, -⟩
    · rw [hw]
      rcases ih st₁ with ⟨st₂, hr, hp'⟩ | ⟨st₂, done, d, hr, hpre, hp', hd⟩ | ⟨st₂, done, hr, hpre,
        hp'⟩
      · exact .inl ⟨st₂, hr, hp.trans hp'⟩
      · exact .inr (.inl ⟨st₂, w :: done, d, hr, (List.prefix_cons_inj w).2 hpre, hp.trans hp', hd⟩)
      · exact .inr (.inr ⟨st₂, w :: done, hr, (List.prefix_cons_inj w).2 hpre, hp.trans hp'⟩)
    · rw [hw]
      exact .inr (.inl ⟨st₁, [], d, rfl, List.nil_prefix, hp, hid, hloc⟩)
    · rw [hw]
      exact .inr (.inr ⟨st₁, [], rfl, List.nil_prefix, hp⟩)

/-! ## Answering -/

/-- For a request its wrappers are built, or one diagnostic is reported at its place, or what is
built is dropped. -/
inductive Built (h : Host σ) (i : PassInput) (r : Request) (st : PassState σ) :
    EStateM.Result PassError (PassState σ) (List Wrapper) → Prop
  | needed {ws} (needed : i.program.wrappersFor? i.settings st.exposure r = some ws) :
    Built h i r st (.ok ws st)
  | nothing {st' d} (needed : i.program.wrappersFor? i.settings st.exposure r = none)
      (progress : st.Progress i st' [] [d]) (id : d.id = DiagnosticKind.eventsNotFound.id)
      (location : d.location = r.location) : Built h i r st (.ok [] st')
  | failed {st' d} (stopped : (i.damage.stopping? i.program st.exposure r).isSome)
      (progress : st.Progress i st' [] [d]) (id : d.id = DiagnosticKind.generationFailed.id)
      (location : d.location = r.location) : Built h i r st (.ok [] st')
  | dropped (stops : i.stops h (.wrappers st.processed) st) : Built h i r st (.error .cancelled st)

theorem build_cases (h : Host σ) (i : PassInput) (r : Request) (st : PassState σ) :
    Built h i r st (build h i r st) := by
  rw [build_run]
  split
  · next hc => exact .dropped hc
  · cases hstop : i.damage.stopping? i.program st.exposure r with
    | some message =>
      exact .failed (by rw [hstop]; rfl)
        ((progress_told _ st).trans (progress_reported _ _)) rfl rfl
    | none =>
      cases hneeded : i.program.wrappersFor? i.settings st.exposure r with
      | none => exact .nothing hneeded (progress_reported _ st) rfl rfl
      | some ws => exact .needed hneeded

/-- The answer to a request leaves its wrappers delivered, or reports one diagnostic at its place,
or the pass is cancelled. -/
inductive Answered (i : PassInput) (r : Request) (st : PassState σ) :
    EStateM.Result PassError (PassState σ) Unit → Prop
  | delivered {ws st'} (needed : i.program.wrappersFor? i.settings st.exposure r = some ws)
      (progress : st.Progress i st' ws []) : Answered i r st (.ok () st')
  | conflict {ws done st' d} (needed : i.program.wrappersFor? i.settings st.exposure r = some ws)
      (first : done <+: ws) (progress : st.Progress i st' done [d])
      (id : d.id = DiagnosticKind.outputConflict.id) (location : d.location = r.location) :
      Answered i r st (.ok () st')
  | nothing {st' d} (needed : i.program.wrappersFor? i.settings st.exposure r = none)
      (progress : st.Progress i st' [] [d])
      (id : d.id = DiagnosticKind.eventsNotFound.id) (location : d.location = r.location) :
      Answered i r st (.ok () st')
  | failed {st' d} (stopped : (i.damage.stopping? i.program st.exposure r).isSome)
      (progress : st.Progress i st' [] [d])
      (id : d.id = DiagnosticKind.generationFailed.id) (location : d.location = r.location) :
      Answered i r st (.ok () st')
  | cancelled {ws done st'} (needed : i.program.wrappersFor? i.settings st.exposure r = some ws)
      (first : done <+: ws) (progress : st.Progress i st' done []) :
      Answered i r st (.error .cancelled st')
  | dropped : Answered i r st (.error .cancelled st)

theorem answer_cases (h : Host σ) (i : PassInput) (r : Request) (st : PassState σ) :
    Answered i r st (answer h i r st) := by
  rw [answer_run]
  have hbuilt := build_cases h i r st
  revert hbuilt
  generalize build h i r st = result
  intro hbuilt
  cases hbuilt with
  | dropped => exact .dropped
  | nothing hneeded hp hid hloc => exact .nothing hneeded hp hid hloc
  | failed hstopped hp hid hloc => exact .failed hstopped hp hid hloc
  | @needed ws hneeded =>
    rcases deliverAll_cases h i r.location ws st with
      ⟨st', hr, hp⟩ | ⟨st', done, d, hr, hpre, hp, hid, hloc⟩ | ⟨st', done, hr, hpre, hp⟩
    · simp only [hr]
      exact .delivered hneeded hp
    · simp only [hr]
      exact .conflict hneeded hpre hp hid hloc
    · simp only [hr]
      exact .cancelled hneeded hpre hp

theorem Answered.progress {r : Request} {st st' : PassState σ} (h : Answered i r st (.ok () st')) :
    ∃ ws ds, st.Progress i st' ws ds := by
  cases h with
  | delivered _ hp => exact ⟨_, _, hp⟩
  | conflict _ _ hp => exact ⟨_, _, hp⟩
  | nothing _ hp => exact ⟨_, _, hp⟩
  | failed _ hp => exact ⟨_, _, hp⟩

theorem progress_answerAll {requests : List Request} {st last : PassState σ}
    (hrun : answerAll h i requests st = .ok () last) : ∃ ws ds, st.Progress i last ws ds := by
  induction requests generalizing st with
  | nil =>
    cases hrun
    exact ⟨[], [], .refl _⟩
  | cons r rest ih =>
    obtain ⟨st', hr, hlater⟩ := answerAll_cons_ok hrun
    obtain ⟨ws, ds, hp⟩ := (hr ▸ answer_cases h i r st).progress
    obtain ⟨ws', ds', hp'⟩ := ih hlater
    exact ⟨_, _, hp.counted.trans hp'⟩

/-- Where all requests are answered each of them was, and something more may have happened since. -/
theorem exists_answer_of_answerAll {requests : List Request} {st last : PassState σ}
    (hrun : answerAll h i requests st = .ok () last) {r : Request} (hr : r ∈ requests) :
    ∃ before after ws ds, answer h i r before = .ok () after ∧ after.Progress i last ws ds := by
  induction requests generalizing st with
  | nil => cases hr
  | cons first rest ih =>
    obtain ⟨st', hanswer, hlater⟩ := answerAll_cons_ok hrun
    rcases List.mem_cons.1 hr with rfl | hr
    · obtain ⟨ws, ds, hp⟩ := progress_answerAll hlater
      exact ⟨st, st', ws, ds, hanswer, hp.of_counted⟩
    · exact ih hlater hr

/-! ## Before and after the requests -/

/-- A step that always ends and neither delivers nor reports anything. -/
def Quiet {α : Type} (i : PassInput) (x : PassStep σ α) : Prop :=
  ∀ st, ∃ a st', x st = .ok a st' ∧ st.Progress i st' [] []

theorem quiet_record (change : Metrics → Metrics) : Quiet i (record (σ := σ) change) :=
  fun st => ⟨(), _, rfl, progress_recorded change st⟩

theorem quiet_tell (e : PassEvent) : Quiet i (tell h e) :=
  fun st => ⟨(), _, rfl, progress_told e st⟩

theorem Quiet.bind {α β : Type} {x : PassStep σ α} {f : α → PassStep σ β} (hx : Quiet i x)
    (hf : ∀ a, Quiet i (f a)) :
    Quiet i (x >>= f) := by
  intro st
  obtain ⟨a, st₁, hrun, hp⟩ := hx st
  obtain ⟨b, st₂, hrun', hp'⟩ := hf a st₁
  exact ⟨b, st₂, (bind_ok f hrun).trans hrun', hp.trans hp'⟩

theorem Quiet.forM {α : Type} {f : α → PassStep σ PUnit} (hf : ∀ a, Quiet i (f a)) (l : List α) :
    Quiet i (l.forM f) := by
  induction l with
  | nil => exact fun st => ⟨(), st, rfl, .refl st⟩
  | cons a rest ih => exact (hf a).bind fun _ => ih

theorem quiet_announce (h : Host σ) (i : PassInput) (requests : Requests) :
    Quiet i (announce h i requests) :=
  (Quiet.forM (fun _ => quiet_record _) _).bind fun _ =>
    (Quiet.forM (fun _ => (quiet_record _).bind fun _ => quiet_tell _) _).bind fun _ => quiet_tell _

/-- What is reported of a unit without a wrapper: nothing, or that the host refused it. -/
def ReportsRefusalOf (kind : UnitKind) (t : Transcript) (ds : List Diagnostic) : Prop :=
  ds = [] ∨ ∃ u e, u.kind = kind ∧ .offered u (.error e) ∈ t ∧ ds = [refusal u e]

/-- A unit without a wrapper is taken, or its refusal is reported, or the pass ends. -/
theorem deliverUnit_cases (h : Host σ) (i : PassInput) {u : Delivery} (hw : u.wrapper = none)
    (st : PassState σ) :
    (∃ taken st' ds, deliverUnit h u st = .ok taken st' ∧ st.Progress i st' [] ds ∧
      ReportsRefusalOf u.kind st'.transcript ds) ∨
    (∃ st', deliverUnit h u st = .error .cancelled st' ∧ st.Progress i st' [] []) := by
  have hoffered : ∀ {e}, st.answerTo h u = .error e → st.Progress i (st.offered h u) [] [] :=
    progress_refused
  rcases verdict_cases (st.answerTo h u) with hu | hu | ⟨e, hu, he⟩
  · exact .inl ⟨_, _, _, deliverUnit_of_taken hu, progress_stored hu hw, .inl rfl⟩
  · exact .inr ⟨_, deliverUnit_of_cancelled hu, hoffered hu⟩
  · refine .inl ⟨_, _, _, deliverUnit_of_refused hu he,
      (hoffered hu).trans (progress_reported _ _), .inr ⟨u, e, rfl, ?_, rfl⟩⟩
    simp [reported, told, recorded, offered, hu]

/-- Before the first request the triggers may be refused, and nothing else is reported. -/
theorem prepare_cases (h : Host σ) (i : PassInput) (requests : Requests) (st : PassState σ) :
    (∃ st' ds, prepare h i requests st = .ok () st' ∧ st.Progress i st' [] ds ∧
      ReportsRefusalOf .bootstrap st'.transcript ds) ∨
    (∃ st', prepare h i requests st = .error .cancelled st' ∧ st.Progress i st' [] []) := by
  obtain ⟨⟨⟩, st₁, hannounce, hp⟩ := quiet_announce h i requests st
  rw [prepare, bind_ok _ hannounce, deliverTriggers_run]
  split
  · split
    · exact .inr ⟨st₁, rfl, hp⟩
    · rcases deliverUnit_cases h i (u := triggersUnitOf i) rfl st₁ with
        ⟨taken, st₂, ds, hrun, hp', hr⟩ | ⟨st₂, hrun, hp'⟩
      · rw [hrun]
        exact .inl ⟨st₂, ds, rfl, hp.trans hp', hr⟩
      · rw [hrun]
        exact .inr ⟨st₂, rfl, hp.trans hp'⟩
  · exact .inl ⟨st₁, [], rfl, hp, .inl rfl⟩

/-- After the last request the extensions may be refused, and nothing else is reported. -/
theorem deliverExtensions_cases (h : Host σ) (i : PassInput) (st : PassState σ) :
    (∃ st' ds, deliverExtensions h i st = .ok () st' ∧ st.Progress i st' [] ds ∧
      ReportsRefusalOf (.extensions st.factories.length) st'.transcript ds) ∨
    (∃ st', deliverExtensions h i st = .error .cancelled st' ∧ st.Progress i st' [] []) := by
  rw [deliverExtensions_run]
  split
  · exact .inr ⟨st, rfl, .refl st⟩
  · cases i.settings.renderExtensions st.factories with
    | none => exact .inl ⟨st, [], rfl, .refl st, .inl rfl⟩
    | some text =>
      rcases deliverUnit_cases h i (u := extensionsUnitOf i st.factories text) rfl st with
        ⟨taken, st', ds, hrun, hp, hr⟩ | ⟨st', hrun, hp⟩
      · simp only [hrun]
        exact .inl ⟨st', ds, rfl, hp, hr⟩
      · simp only [hrun]
        exact .inr ⟨st', rfl, hp⟩

end PassStep

end EventWrap
