import EventWrap.Proofs.Pass.Lockstep
import EventWrap.Proofs.Pass.Requests
import Mathlib.Order.Bounds.Defs

/-!
# Cancelled passes

A pass can be cancelled at any moment, by its host while it is told of events, asked for units or
polled, or from elsewhere between two polls. What a cancelled pass has delivered and reported is a
first part of what the same pass does when nobody cancels it; it ends by telling how many requests
it has processed, and after the cancellation no unit for a later request is delivered.
-/

namespace EventWrap

variable {σ τ : Type}

open PassStep

/-! ## Endings -/

/-- Events that a pass ends with. -/
def PassEvent.isEnding : PassEvent → Bool
  | .cancelled _ => true
  | .completed .. => true
  | _ => false

namespace PassState

/-- The pass did not yet tell of its end. -/
def LacksEnding (st : PassState σ) : Prop := ∀ e ∈ st.transcript.events, e.isEnding = false

variable {h : Host σ} {i : PassInput} {st : PassState σ}

theorem LacksEnding.of_events {st' : PassState σ} (hst : st.LacksEnding) (part : List PassEvent)
    (hevents : st'.transcript.events = st.transcript.events ++ part)
    (hpart : ∀ e ∈ part, e.isEnding = false) : st'.LacksEnding := by
  intro e he
  rw [hevents] at he
  exact (List.mem_append.1 he).elim (hst e) (hpart e)

theorem LacksEnding.told (hst : st.LacksEnding) {e : PassEvent} (he : e.isEnding = false) :
    (st.told h e).LacksEnding :=
  hst.of_events [e] (by simp [PassState.told]) (by simpa using he)

theorem LacksEnding.stored (hst : st.LacksEnding) {u : Delivery} (hu : st.answerTo h u = .ok ()) :
    (st.stored h u).LacksEnding := by
  refine hst.of_events [.sourceAdded u.hintName u.text.utf8ByteSize] ?_
    (by simp [PassEvent.isEnding])
  rw [stored_transcript hu, Transcript.events_append]
  rfl

theorem kept_lacksEnding (h : Host σ) (i : PassInput) : Kept h i LacksEnding where
  change {st st'} hchange hst := by
    cases hchange with
    | failed => exact hst.told rfl
    | reported d =>
      refine hst.of_events [.diagnosticReported d] ?_ (by simp [PassEvent.isEnding])
      rw [reported_transcript, Transcript.events_append]
      rfl
    | refused => exact hst.of_events [] (by simp [offered]) (by simp)
    | @delivered location w hfree hu =>
      have hentered := Transcript.events_append (st.stored h (unitOf i location w)).transcript
        [.told (.wrapperGenerated (i.program.qualifiedName w.source) w.mode w.fileName
          w.events.length)]
      rw [← entered_transcript] at hentered
      exact (hst.stored hu).of_events _ hentered (by simp [PassEvent.isEnding])
  counted hst := hst

theorem lacksEnding_execute (h : Host σ) {i : PassInput} (start : σ) {requests : Requests}
    (hd : i.program.discover i.settings = .ok requests) :
    LacksEnding (stateAfter (execute h i) { host := start }) := by
  refine (kept_lacksEnding h i).execute hd (fun _ _ hu hst => hst.stored hu) ?_
  refine announced_induction (fun hst => hst) (fun hst => ?_) (fun hst => hst.told rfl) ?_
  · exact LacksEnding.told (h := h) hst rfl
  · intro e he
    cases he

/-! ## Processed requests -/

theorem stable_processed (h : Host σ) (i : PassInput) (n : Nat) :
    Stable h i fun st => st.processed = n where
  change {st st'} hchange hst := by
    cases hchange with
    | failed => exact hst
    | reported => exact hst
    | refused => exact hst
    | delivered => rw [entered_processed]; exact hst

end PassState

namespace PassStep

open PassState

variable {h : Host σ} {i : PassInput} {st last : PassState σ}

theorem processed_prepare (h : Host σ) (i : PassInput) (requests : Requests) (st : PassState σ) :
    (stateAfter (prepare h i requests) st).processed = st.processed := by
  have hannounced : (st.announced h i requests).processed = st.processed :=
    announced_induction (I := fun st' => st'.processed = st.processed) (fun hst => hst)
      (fun hst => hst) (fun hst => hst) rfl
  rw [stateAfter, prepare_run]
  exact (stable_processed h i st.processed).deliverTriggers (fun _ => hannounced) hannounced

theorem processed_answer (h : Host σ) (i : PassInput) (r : Request) (st : PassState σ) :
    (stateAfter (answer h i r) st).processed = st.processed :=
  (stable_processed h i st.processed).answer r rfl

theorem processed_deliverExtensions (h : Host σ) (i : PassInput) (st : PassState σ) :
    (stateAfter (deliverExtensions h i) st).processed = st.processed :=
  (stable_processed h i st.processed).deliverExtensions (fun _ _ => rfl) rfl

theorem answerAll_append_run (h : Host σ) (i : PassInput) (done later : List Request)
    (st : PassState σ) :
    answerAll h i (done ++ later) st =
      match answerAll h i done st with
      | .ok () st' => answerAll h i later st'
      | .error e st' => .error e st' := by
  induction done generalizing st with
  | nil => rfl
  | cons r rest ih =>
    rw [List.cons_append, answerAll_cons_run, answerAll_cons_run]
    by_cases hc : i.stops h (.request st.processed) st
    · rw [if_pos hc, if_pos hc]
    · rw [if_neg hc, if_neg hc]
      rcases answer h i r st with ⟨⟨⟩, st'⟩ | ⟨e, st'⟩
      · exact ih _
      · rfl

theorem answerAll_append_of_ok {done : List Request} (hdone : answerAll h i done st = .ok () last)
    (later : List Request) : answerAll h i (done ++ later) st = answerAll h i later last := by
  rw [answerAll_append_run, hdone]

theorem answerAll_append_of_error {done : List Request} {e : PassError}
    (hdone : answerAll h i done st = .error e last) (later : List Request) :
    answerAll h i (done ++ later) st = .error e last := by
  rw [answerAll_append_run, hdone]

theorem processed_answerAll {requests : List Request}
    (hrun : answerAll h i requests st = .ok () last) :
    last.processed = st.processed + requests.length := by
  induction requests generalizing st with
  | nil =>
    cases hrun
    rfl
  | cons r rest ih =>
    obtain ⟨st', hr, hlater⟩ := answerAll_cons_ok hrun
    have hanswer := processed_answer h i r st
    rw [stateAfter_ok hr] at hanswer
    have hcounted : st'.counted.processed = st'.processed + 1 := rfl
    rw [ih hlater, hcounted, hanswer, List.length_cons]
    omega

/-- Answers that end early end at some request, which does not count as processed. -/
theorem exists_stuck {requests : List Request} {e : PassError}
    (hrun : answerAll h i requests st = .error e last) :
    ∃ done r later mid, requests = done ++ r :: later ∧ answerAll h i done st = .ok () mid ∧
      answerAll h i [r] mid = .error e last ∧ last.processed = mid.processed := by
  induction requests generalizing st with
  | nil => cases hrun
  | cons r rest ih =>
    rw [← List.singleton_append] at hrun
    rcases hr : answerAll h i [r] st with ⟨⟨⟩, st'⟩ | ⟨e', st'⟩
    · rw [answerAll_append_of_ok hr] at hrun
      obtain ⟨done, r', later, mid, rfl, hdone, hstuck, hprocessed⟩ := ih hrun
      refine ⟨r :: done, r', later, mid, rfl, ?_, hstuck, hprocessed⟩
      rw [← List.singleton_append, answerAll_append_of_ok hr]
      exact hdone
    · rw [answerAll_append_of_error hr] at hrun
      cases hrun
      refine ⟨[], r, rest, st, rfl, rfl, hr, ?_⟩
      rw [answerAll_cons_run] at hr
      split at hr
      · cases hr
        rfl
      · have hanswer := processed_answer h i r st
        rcases ha : answer h i r st with ⟨⟨⟩, st'⟩ | ⟨e', st'⟩
        · rw [ha] at hr
          cases hr
        · rw [ha] at hr
          cases hr
          rwa [stateAfter_error ha] at hanswer

/-- No answers go beyond the request at which some end early. -/
theorem answerAll_take_ne_ok {done later : List Request} {r : Request} {mid : PassState σ}
    {e : PassError} (hdone : answerAll h i done st = .ok () mid)
    (hstuck : answerAll h i [r] mid = .error e last) {n : Nat} (hn : done.length < n)
    (reached : PassState σ) :
    answerAll h i ((done ++ r :: later).take n) st ≠ .ok () reached := by
  obtain ⟨k, rfl⟩ := Nat.exists_eq_add_of_lt hn
  rw [Nat.add_assoc, List.take_length_add_append, List.take_succ_cons,
    answerAll_append_of_ok hdone, ← List.singleton_append, answerAll_append_of_error hstuck]
  intro heq
  cases heq

end PassStep

namespace PassInput

open PassState

variable {h : Host σ} {i : PassInput} {start : σ} {requests : Requests}

/-- The first requests of a pass were processed. -/
def Processes (h : Host σ) (i : PassInput) (start : σ) (requests : Requests) (n : Nat) : Prop :=
  n = 0 ∨ n ≤ requests.toList.length ∧
    ∃ reached, upTo h i requests (requests.toList.take n) { host := start } = .ok () reached

/-- A pass that ends early knows how many of its requests were processed. -/
theorem processed_of_execute_error (hd : i.program.discover i.settings = .ok requests)
    {e : PassError} {st : PassState σ} (hx : execute h i { host := start } = .error e st) :
    IsGreatest {n | Processes h i start requests n} st.processed := by
  have hprepared := processed_prepare h i requests { host := start }
  rw [execute_run h i hd] at hx
  rcases hprepare : prepare h i requests { host := start } with ⟨⟨⟩, opened⟩ | ⟨e', opened⟩
  · rw [stateAfter_ok hprepare] at hprepared
    have hopened : opened.processed = 0 := hprepared
    simp only [hprepare] at hx
    rcases hanswers : answerAll h i requests.toList opened with ⟨⟨⟩, answered⟩ | ⟨e', answered⟩
    · have hall := processed_answerAll hanswers
      have hextensions := processed_deliverExtensions h i answered
      simp only [hanswers] at hx
      rw [stateAfter_error hx, hall, hopened, Nat.zero_add] at hextensions
      rw [hextensions]
      refine ⟨.inr ⟨Nat.le_refl _, answered, ?_⟩, ?_⟩
      · rw [List.take_length, upTo_of_prepare hprepare, hanswers]
      · rintro n (rfl | ⟨hn, -⟩)
        · exact Nat.zero_le _
        · exact hn
    · simp only [hanswers] at hx
      cases hx
      obtain ⟨done, r, later, mid, hsplit, hdone, hstuck, hprocessed⟩ := exists_stuck hanswers
      have hmid := processed_answerAll hdone
      rw [hopened, Nat.zero_add] at hmid
      rw [hprocessed, hmid]
      refine ⟨.inr ⟨?_, mid, ?_⟩, ?_⟩
      · rw [hsplit, List.length_append]
        exact Nat.le_add_right _ _
      · rw [hsplit, List.take_left, upTo_of_prepare hprepare, hdone]
      · rintro n (rfl | ⟨-, reached, hreached⟩)
        · exact Nat.zero_le _
        · by_contra hlt
          rw [upTo_of_prepare hprepare, hsplit] at hreached
          exact answerAll_take_ne_ok hdone hstuck (Nat.lt_of_not_le hlt) reached hreached
  · simp only [hprepare] at hx
    cases hx
    rw [stateAfter_error hprepare] at hprepared
    have hnone : st.processed = 0 := hprepared
    rw [hnone]
    refine ⟨.inl rfl, ?_⟩
    rintro n (rfl | ⟨-, reached, hreached⟩)
    · exact Nat.le_refl _
    · obtain ⟨opened, hopened, -⟩ := upTo_ok hreached
      rw [hprepare] at hopened
      cases hopened

/-! ## Polls -/

/-- The polls of a pass, with the states in which they happen: before the triggers, before each
request and when its wrappers are built, and before the extensions. -/
inductive Asks (h : Host σ) (i : PassInput) (start : σ) : Turn → PassState σ → Prop
  | triggers {requests : Requests} (discovered : i.program.discover i.settings = .ok requests)
      (emits : i.settings.emitBootstrap = true) :
      Asks h i start .triggers (stateAfter (announce h i requests) { host := start })
  | request {requests : Requests} {done later : List Request} {r : Request} {st : PassState σ}
      (discovered : i.program.discover i.settings = .ok requests)
      (order : requests.toList = done ++ r :: later)
      (reached : upTo h i requests done { host := start } = .ok () st) :
      Asks h i start (.request done.length) st
  | wrappers {requests : Requests} {done later : List Request} {r : Request} {st : PassState σ}
      (discovered : i.program.discover i.settings = .ok requests)
      (order : requests.toList = done ++ r :: later)
      (reached : upTo h i requests done { host := start } = .ok () st)
      (began : i.stops h (.request done.length) st = false) :
      Asks h i start (.wrappers done.length) st
  | extensions {requests : Requests} {st : PassState σ}
      (discovered : i.program.discover i.settings = .ok requests)
      (reached : upTo h i requests requests.toList { host := start } = .ok () st) :
      Asks h i start (.request requests.toList.length) st

theorem processed_upTo {done : List Request} {st : PassState σ}
    (hreached : upTo h i requests done { host := start } = .ok () st) :
    st.processed = done.length := by
  obtain ⟨opened, hprepare, hanswers⟩ := upTo_ok hreached
  have hopened := processed_prepare h i requests { host := start }
  rw [stateAfter_ok hprepare] at hopened
  rw [processed_answerAll hanswers, hopened]
  exact Nat.zero_add _

/-- A pass goes on from what some of its answers left. -/
theorem execute_of_upTo_ok (hd : i.program.discover i.settings = .ok requests)
    {done later : List Request} (horder : requests.toList = done ++ later) {st : PassState σ}
    (hreached : upTo h i requests done { host := start } = .ok () st) :
    execute h i { host := start } =
      (answerAll h i later >>= fun _ => deliverExtensions h i) st := by
  obtain ⟨opened, hprepare, hanswers⟩ := upTo_ok hreached
  rw [execute_run_upTo h i hd, bind_run, upTo_of_prepare hprepare, horder,
    answerAll_append_of_ok hanswers, ← bind_run]

theorem execute_of_upTo_error (hd : i.program.discover i.settings = .ok requests)
    {done later : List Request} (horder : requests.toList = done ++ later) {e : PassError}
    {st : PassState σ} (hstuck : upTo h i requests done { host := start } = .error e st) :
    execute h i { host := start } = .error e st := by
  have hall : upTo h i requests requests.toList { host := start } = .error e st := by
    rw [upTo, bind_run] at hstuck ⊢
    rcases hprepare : prepare h i requests { host := start } with ⟨⟨⟩, opened⟩ | ⟨e', opened⟩
    · rw [hprepare] at hstuck
      rw [horder]
      exact answerAll_append_of_error hstuck later
    · rwa [hprepare] at hstuck
  rw [execute_run_upTo h i hd, bind_run, hall]

/-- A pass that is to stop when it asks before a request or the extensions stops there. -/
theorem execute_of_stops (hd : i.program.discover i.settings = .ok requests)
    {done later : List Request} (horder : requests.toList = done ++ later) {st : PassState σ}
    (hreached : upTo h i requests done { host := start } = .ok () st)
    (hstops : i.stops h (.request done.length) st = true) :
    execute h i { host := start } = .error .cancelled st := by
  rw [← processed_upTo hreached] at hstops
  rw [execute_of_upTo_ok hd horder hreached, bind_run]
  cases later with
  | nil =>
    change deliverExtensions h i st = _
    rw [deliverExtensions_run, if_pos hstops]
  | cons r later => rw [answerAll_cons_run, if_pos hstops]

/-- A pass that is to stop at a poll is cancelled there. -/
theorem Asks.execute {turn : Turn} {st : PassState σ} (hasks : Asks h i start turn st)
    (hstops : i.stops h turn st = true) : execute h i { host := start } = .error .cancelled st := by
  cases hasks with
  | @triggers requests hd hemits =>
    rw [stateAfter_ok (announce_run h i requests _)] at hstops ⊢
    rw [execute_run_upTo h i hd, bind_run, upTo, bind_run, prepare_run, deliverTriggers_run,
      if_pos hemits, if_pos hstops]
  | request hd horder hreached => exact execute_of_stops hd horder hreached hstops
  | extensions hd hreached =>
    exact execute_of_stops hd (List.append_nil _).symm hreached hstops
  | @wrappers requests done later r st hd horder hreached hbegan =>
    have hprocessed := processed_upTo hreached
    rw [← hprocessed] at hbegan hstops
    rw [execute_of_upTo_ok hd horder hreached, bind_run, answerAll_cons_run, hbegan, answer_run,
      build_run, if_pos hstops]
    rfl

/-! ## Requests after a cancellation -/

/-- Once a pass is cancelled, by its host or from elsewhere, it stays so. -/
structure StaysCancelled (h : Host σ) (i : PassInput) (start : σ) : Prop where
  byHost {t t' : Transcript} : t <+: t' → h.cancelled (h.after start t) = true →
    h.cancelled (h.after start t') = true
  elsewhere {turn turn' : Turn} : turn ≤ turn' → i.interrupted turn = true →
    i.interrupted turn' = true

/-- A pass was cancelled at some moment before it came to a state, or when it asks there. -/
def WasCancelled (h : Host σ) (i : PassInput) (start : σ) (turn : Turn) (st : PassState σ) :
    Prop :=
  (∃ t, t <+: st.transcript ∧ h.cancelled (h.after start t) = true) ∨
    ∃ earlier ≤ turn, i.interrupted earlier = true

theorem StaysCancelled.stops (hstays : StaysCancelled h i start) {turn : Turn} {st : PassState σ}
    (hst : st.Follows h start) (hwas : WasCancelled h i start turn st) :
    i.stops h turn st = true := by
  rw [PassInput.stops, Bool.or_eq_true]
  rcases hwas with ⟨t, hprefix, hcancelled⟩ | ⟨earlier, hle, hinterrupted⟩
  · exact .inl (hst.host ▸ hstays.byHost hprefix hcancelled)
  · exact .inr (hstays.elsewhere hle hinterrupted)

/-- A pass that is cancelled while it answers some requests delivers nothing after them. -/
theorem StaysCancelled.taken_run (hstays : StaysCancelled h i start)
    (hd : i.program.discover i.settings = .ok requests) {done later : List Request}
    (horder : requests.toList = done ++ later)
    (hwas : WasCancelled h i start (.request done.length)
      (stateAfter (upTo h i requests done) { host := start })) :
    (i.run h start).transcript.taken =
      (stateAfter (upTo h i requests done) { host := start }).transcript.taken := by
  rw [PassInput.taken_run]
  rcases hreached : upTo h i requests done { host := start } with ⟨⟨⟩, st⟩ | ⟨e, st⟩
  · rw [stateAfter_ok hreached] at hwas ⊢
    have hfollows := follows_upTo h i start requests done
    rw [stateAfter_ok hreached] at hfollows
    have hstops := hstays.stops hfollows hwas
    rw [stateAfter_error (execute_of_stops hd horder hreached hstops)]
  · rw [stateAfter_error hreached, stateAfter_error (execute_of_upTo_error hd horder hreached)]

/-! ## Cancelled and uncancelled passes -/

/-- A cancelled pass did not deliver the extensions. -/
theorem lacksExtensions_of_execute_error {e : PassError} {st : PassState σ}
    (hd : i.program.discover i.settings = .ok requests)
    (hx : execute h i { host := start } = .error e st) : st.LacksExtensions := by
  have hlacks := lacksExtensions_upTo h i start requests requests.toList
  rw [execute_run_upTo h i hd, bind_run] at hx
  rcases hreached : upTo h i requests requests.toList { host := start } with
    ⟨⟨⟩, answered⟩ | ⟨e', answered⟩
  · rw [hreached] at hx
    rw [stateAfter_ok hreached] at hlacks
    rcases stored_or_changes_of_deliverExtensions h i answered with ⟨text, -, hstored⟩ | hchanges
    · cases hx.symm.trans hstored
    · rw [stateAfter_error hx] at hchanges
      exact (kept_lacksExtensions h i).changes hchanges hlacks
  · rw [hreached] at hx
    cases hx
    rwa [stateAfter_error hreached] at hlacks

/-- What a cancelled pass delivers and reports is a first part of what the same pass does when its
host, answering alike, never stops it. It delivers no extensions, and ends by telling how many
requests it has processed. Once it is cancelled nothing is delivered for a later request, and every
poll after that ends it. -/
theorem cancelled_run_precedes {g : Host τ} {calm : τ} {policy : Policy} (i : PassInput)
    (hh : h.AnswersBy start policy) (hg : g.CalmlyAnswersBy calm policy) :
    ((i.run h start).outcome = .error .cancelled →
      (i.run h start).transcript.Precedes (i.uninterrupted.run g calm).transcript ∧
      (∀ u ∈ (i.run h start).transcript.taken, ∀ n, u.kind ≠ .extensions n) ∧
      ∃ requests number earlier, i.program.discover i.settings = .ok requests ∧
        IsGreatest {n | Processes h i start requests n} number ∧
        (i.run h start).transcript.events = earlier ++ [.cancelled number] ∧
        ∀ e ∈ earlier, e.isEnding = false) ∧
    (StaysCancelled h i start → ∀ requests done later,
      i.program.discover i.settings = .ok requests → requests.toList = done ++ later →
      WasCancelled h i start (.request done.length)
        (stateAfter (upTo h i requests done) { host := start }) →
      (i.run h start).transcript.taken =
        (stateAfter (upTo h i requests done) { host := start }).transcript.taken) ∧
    ∀ turn st, Asks h i start turn st → i.stops h turn st = true →
      (i.run h start).outcome = .error .cancelled := by
  refine ⟨fun hcancelled => ?_, fun hstays _ _ _ hd horder hwas => hstays.taken_run hd horder hwas,
    fun turn st hasks hstops => (run_of_error (hasks.execute hstops)).1⟩
  rcases hx : execute h i { host := start } with ⟨⟨⟩, st⟩ | ⟨e, st⟩
  · rw [run_of_ok hx] at hcancelled
    cases hcancelled
  obtain rfl : e = .cancelled := by
    rw [(run_of_error hx).1] at hcancelled
    exact Except.error.inj hcancelled
  rcases hd : i.program.discover i.settings with e | requests
  · rw [execute_run_of_error h i hd] at hx
    cases hx
    cases (Program.discover_eq_error hd).2
  have hprecedes := (leads_execute hh hg i).error .initial hx
  have hlacks := lacksEnding_execute h start hd
  rw [stateAfter_error hx] at hlacks
  refine ⟨⟨?_, ?_⟩, ?_, requests, st.processed, st.transcript.events, rfl,
    processed_of_execute_error hd hx, ?_, hlacks⟩
  · rw [PassInput.taken_run, PassInput.taken_run, stateAfter_error hx]
    exact hprecedes.taken
  · rw [diagnostics_run, diagnostics_run, stateAfter_error hx]
    exact hprecedes.diagnostics
  · rw [PassInput.taken_run, stateAfter_error hx]
    exact lacksExtensions_of_execute_error hd hx
  · rw [run_of_cancelled hx, Transcript.events_append, Transcript.events_told]

/-- A host in memory that is cancelled while it is told of an event stays cancelled. -/
theorem staysCancelled_of_cancelling (typeName : String) (number : Nat) (p : Program)
    (s : Settings) :
    StaysCancelled (Host.cancelling MemoryHost.cancel typeName number MemoryHost.host) (p.pass s)
      ({}, 0) where
  byHost {t t'} hprefix hcancelled := by
    have hkept : ∀ (t : Transcript) (x : MemoryHost × Nat), x.1.isCancelled = true →
        ((Host.cancelling MemoryHost.cancel typeName number MemoryHost.host).after x
          t).1.isCancelled = true := by
      intro t
      induction t with
      | nil => exact fun _ hx => hx
      | cons exchange rest ih =>
        intro x hx
        apply ih
        cases exchange with
        | offered u answer =>
          simp only [Host.leave, Host.cancelling, MemoryHost.host, MemoryHost.offer]
          repeat' split
          all_goals exact hx
        | reported d => exact hx
        | told e =>
          simp only [Host.leave, Host.cancelling]
          split
          · split
            · rfl
            · exact hx
          · exact hx
    obtain ⟨later, rfl⟩ := hprefix
    rw [Host.after_append]
    exact hkept later _ hcancelled
  elsewhere _ hinterrupted := by cases hinterrupted

/-- A host in memory that is cancelled while it is told of the first wrapper still takes the other
one of the same request, but nothing after it. -/
theorem controls_cancelled_run_precedes :
    let h := Host.cancelling MemoryHost.cancel "wrapper_generated" 1 MemoryHost.host
    let i := Program.controls.pass {}
    let r : Request := ⟨4, .ofInstance, {}⟩
    (i.run h ({}, 0)).outcome = .error .cancelled ∧
      (i.run h ({}, 0)).transcript.wrappers.map (·.source) = [3, 4] ∧
      (i.run h ({}, 0)).transcript.Precedes (i.run MemoryHost.host {}).transcript ∧
      (i.run h ({}, 0)).transcript.taken =
        (stateAfter (upTo h i { ofInstances := [r] } [r])
          { host := ({}, 0) }).transcript.taken := by
  intro h i r
  have hcancelled : (i.run h ({}, 0)).outcome = .error .cancelled := by decide +kernel
  have hwrappers : (i.run h ({}, 0)).transcript.wrappers.map (·.source) = [3, 4] := by
    decide +kernel
  obtain ⟨hprecedes, hlater, -⟩ := cancelled_run_precedes i
    (MemoryHost.answersBy_policy_of_cancelling "wrapper_generated" 1)
    MemoryHost.calmlyAnswersBy_policy
  refine ⟨hcancelled, hwrappers, (hprecedes hcancelled).1, ?_⟩
  refine hlater (staysCancelled_of_cancelling _ _ _ _) _ [r] [] Program.discover_controls rfl
    (.inl ⟨_, List.prefix_refl _, ?_⟩)
  decide +kernel

end PassInput

end EventWrap
