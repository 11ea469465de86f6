import EventWrap.Host.Layered
import EventWrap.Proofs.Pass.Changes
import EventWrap.Proofs.Pass.Steadiness

/-!
# Passes in lockstep

Two passes over the same program go side by side, one over a host that may stop it and one over a
host that gives the same answers but never does. As long as the first one is not stopped both are in
the same state but for the host. When it is stopped, the second one goes on from there, so that what
the first has delivered and reported is a first part of what the second does.
-/

namespace EventWrap

variable {σ τ : Type}

/-! ## The same answers -/

/-- What a host answers to a unit, seeing the units that it was offered before, by hint name and
text. -/
abbrev Policy := List (String × String) → String → String → Except HostError Unit

/-- A host that answers by a policy, except that it may want to cancel instead. -/
def Host.AnswersBy (h : Host σ) (start : σ) (policy : Policy) : Prop :=
  ∀ (t : Transcript) hintName text,
    (h.offer hintName text (h.after start t)).1 = policy t.offers hintName text ∨
      (h.offer hintName text (h.after start t)).1 = .error .cancelled

/-- A host that answers by a policy, and never wants a pass to stop. -/
structure Host.CalmlyAnswersBy (g : Host τ) (calm : τ) (policy : Policy) : Prop where
  answers (t : Transcript) (hintName text : String) :
    (g.offer hintName text (g.after calm t)).1 = policy t.offers hintName text
  running (t : Transcript) : g.cancelled (g.after calm t) = false

/-! ### Hosts in memory -/

namespace MemoryHost

/-- How a host in memory answers after some offers. -/
def policy : Policy := fun offers hintName text =>
  (offer hintName text (offers.foldl (fun x o => (offer o.1 o.2 x).2) {})).1

/-- Hosts that hold the same units answer alike, and hold the same units then. -/
theorem offer_of_sources {x y : MemoryHost} (hxy : x.sources = y.sources)
    (hintName text : String) :
    (offer hintName text x).1 = (offer hintName text y).1 ∧
      (offer hintName text x).2.sources = (offer hintName text y).2.sources := by
  unfold offer hintNames
  rw [hxy]
  cases HintName.validate hintName with
  | error e => exact ⟨rfl, hxy⟩
  | ok =>
    simp only
    split
    · exact ⟨rfl, hxy⟩
    · exact ⟨rfl, rfl⟩

/-- A layer over a host in memory that leaves the offers to it answers by the same policy. -/
theorem answer_eq_policy {h : Host σ} {start : σ} (below : σ → MemoryHost)
    (hoffer : ∀ hintName text x,
      (h.offer hintName text x).1 = (offer hintName text (below x)).1 ∧
        (below (h.offer hintName text x).2).sources =
          (offer hintName text (below x)).2.sources)
    (hreport : ∀ d x, (below (h.report d x)).sources = (below x).sources)
    (hnotify : ∀ e x, (below (h.notify e x)).sources = (below x).sources)
    (hstart : (below start).sources = []) (t : Transcript) (hintName text : String) :
    (h.offer hintName text (h.after start t)).1 = policy t.offers hintName text := by
  have hsources : ∀ (t : Transcript) (x : σ) (y : MemoryHost), (below x).sources = y.sources →
      (below (h.after x t)).sources =
        (t.offers.foldl (fun x o => (offer o.1 o.2 x).2) y).sources := by
    intro t
    induction t with
    | nil => exact fun _ _ hxy => hxy
    | cons exchange rest ih =>
      intro x y hxy
      cases exchange with
      | offered u answer =>
        exact ih _ _ ((hoffer _ _ x).2.trans (offer_of_sources hxy _ _).2)
      | reported d => exact ih _ _ ((hreport d x).trans hxy)
      | told e => exact ih _ _ ((hnotify e x).trans hxy)
  rw [(hoffer hintName text _).1]
  exact (offer_of_sources (hsources t start {} hstart) hintName text).1

theorem calmlyAnswersBy_policy : host.CalmlyAnswersBy {} policy where
  answers := answer_eq_policy (h := host) id (fun _ _ _ => ⟨rfl, rfl⟩) (fun _ _ => rfl)
    (fun _ _ => rfl) rfl
  running t := by
    have hcalm : ∀ (t : Transcript) (x : MemoryHost), x.isCancelled = false →
        (host.after x t).isCancelled = false := by
      intro t
      induction t with
      | nil => exact fun _ hx => hx
      | cons exchange rest ih =>
        intro x hx
        cases exchange with
        | offered u answer => exact ih _ (steady.offer hx _ _)
        | reported d => exact ih _ (steady.report hx d)
        | told e => exact ih _ (steady.notify hx e)
    exact hcalm t {} rfl

/-- A host in memory that is cancelled while it is told of an event still answers as it would. -/
theorem answersBy_policy_of_cancelling (typeName : String) (number : Nat) :
    (Host.cancelling cancel typeName number host).AnswersBy ({}, 0) policy := by
  intro t hintName text
  left
  refine answer_eq_policy Prod.fst (fun _ _ _ => ⟨rfl, rfl⟩) (fun _ _ => rfl) ?_ rfl t hintName text
  rintro e ⟨x, count⟩
  simp only [Host.cancelling]
  split
  · split <;> rfl
  · rfl

end MemoryHost

/-! ## The same pass -/

/-- The same pass, cancelled from nowhere else. -/
def PassInput.uninterrupted (i : PassInput) : PassInput := { i with interrupted := fun _ => false }

/-- One transcript delivers and reports a first part of what another one does. -/
structure Transcript.Precedes (t t' : Transcript) : Prop where
  taken : t.taken <+: t'.taken
  diagnostics : t.diagnostics <+: t'.diagnostics

namespace Transcript

theorem Precedes.refl (t : Transcript) : t.Precedes t := ⟨List.prefix_refl _, List.prefix_refl _⟩

theorem Precedes.extend {t t' t'' : Transcript} (h : t.Precedes t') (h' : t' <+: t'') :
    t.Precedes t'' where
  taken := h.taken.trans (h'.filterMap _)
  diagnostics := h.diagnostics.trans (h'.filterMap _)

end Transcript

/-! ## The same states -/

namespace PassState

/-- The same state with another host. -/
def onHost (x : τ) (st : PassState σ) : PassState τ :=
  ⟨x, st.metrics, st.units, st.diagnostics, st.exposure, st.claimed, st.factories, st.processed,
    st.transcript⟩

/-- The state with another host that has been through the same. -/
def twin (g : Host τ) (calm : τ) (st : PassState σ) : PassState τ :=
  st.onHost (g.after calm st.transcript)

variable {h : Host σ} {start : σ} {g : Host τ} {calm : τ} {policy : Policy} {st : PassState σ}

theorem twin_told (e : PassEvent) : (st.told h e).twin g calm = (st.twin g calm).told g e := by
  simp [twin, onHost, told, Host.after, Host.leave]

theorem twin_reported (d : Diagnostic) :
    (st.reported h d).twin g calm = (st.twin g calm).reported g d := by
  simp [twin, onHost, reported, recorded, told, Host.after, Host.leave]

section Answers

variable {u : Delivery} (hu : (st.twin g calm).answerTo g u = st.answerTo h u)

include hu

theorem twin_offered : (st.offered h u).twin g calm = (st.twin g calm).offered g u := by
  rw [offered, offered, hu]
  simp [twin, onHost, Host.after, Host.leave]

theorem twin_stored : (st.stored h u).twin g calm = (st.twin g calm).stored g u := by
  have hoffered := twin_offered hu
  rw [stored, stored, ← hoffered]
  simp [twin, onHost, told, recorded, Host.after, Host.leave]

end Answers

theorem twin_entered (i : PassInput) (w : Wrapper) :
    (st.entered h i w).twin g calm = (st.twin g calm).entered g i.uninterrupted w := by
  unfold entered
  have hprogram : i.uninterrupted.program = i.program := rfl
  have hsettings : i.uninterrupted.settings = i.settings := rfl
  rw [hprogram, hsettings]
  cases w.mode <;> cases i.program.factory? i.settings w <;>
    simp [twin, onHost, told, recorded, Host.after, Host.leave]

/-- Where a host gives an answer of its own, a calm host gives the same. -/
theorem twin_answerTo (hh : h.AnswersBy start policy) (hg : g.CalmlyAnswersBy calm policy)
    (hst : st.Follows h start) (u : Delivery) :
    (st.twin g calm).answerTo g u = st.answerTo h u ∨ st.answerTo h u = .error .cancelled := by
  have hanswer := hh st.transcript u.hintName u.text
  rw [← hst.host] at hanswer
  refine hanswer.imp_left fun heq => ?_
  exact (hg.answers st.transcript u.hintName u.text).trans heq.symm

end PassState

/-! ## Leading steps -/

namespace PassStep

open PassState

/-- A step over a host, and the same step over a calm host. Where the first comes to its end, so
does the second, with the same answer and in the same state; where the first is stopped, the second
has delivered and reported at least as much. -/
structure Leads (h : Host σ) (start : σ) (g : Host τ) (calm : τ) {α : Type} (x : PassStep σ α)
    (y : PassStep τ α) : Prop where
  grows (st' : PassState τ) : st'.transcript <+: (stateAfter y st').transcript
  ok {st st₁ : PassState σ} {a : α} : st.Follows h start → x st = .ok a st₁ →
    st₁.Follows h start ∧ y (st.twin g calm) = .ok a (st₁.twin g calm)
  error {st st₁ : PassState σ} {e : PassError} : st.Follows h start → x st = .error e st₁ →
    st₁.transcript.Precedes (stateAfter y (st.twin g calm)).transcript

namespace Leads

variable {h : Host σ} {start : σ} {g : Host τ} {calm : τ} {policy : Policy} {α β : Type}

theorem pure (a : α) : Leads h start g calm (pure a : PassStep σ α) (pure a) where
  grows _ := List.prefix_refl _
  ok hst hrun := by
    cases hrun
    exact ⟨hst, rfl⟩
  error _ hrun := by cases hrun

theorem throw (e : PassError) : Leads h start g calm (throw e : PassStep σ α) (throw e) where
  grows _ := List.prefix_refl _
  ok _ hrun := by cases hrun
  error _ hrun := by
    cases hrun
    exact .refl _

theorem bind {x : PassStep σ α} {y : PassStep τ α} {f : α → PassStep σ β} {f' : α → PassStep τ β}
    (hx : Leads h start g calm x y) (hf : ∀ a, Leads h start g calm (f a) (f' a)) :
    Leads h start g calm (x >>= f) (y >>= f') := by
  -- What follows a step over the calm host only adds to the transcript that the step leaves.
  have hgrows : ∀ st',
      (stateAfter y st').transcript <+: (stateAfter (y >>= f') st').transcript := by
    intro st'
    rw [stateAfter, stateAfter, bind_run]
    rcases y st' with ⟨a, st₁⟩ | ⟨e, st₁⟩
    · exact (hf a).grows st₁
    · exact List.prefix_refl _
  constructor
  · exact fun st' => (hx.grows st').trans (hgrows st')
  · intro st st₁ b hst hrun
    rw [bind_run] at hrun
    rcases ha : x st with ⟨a, st₂⟩ | ⟨e, st₂⟩
    · rw [ha] at hrun
      obtain ⟨hst₂, hy⟩ := hx.ok hst ha
      rw [bind_ok _ hy]
      exact (hf a).ok hst₂ hrun
    · rw [ha] at hrun
      cases hrun
  · intro st st₁ e hst hrun
    rw [bind_run] at hrun
    rcases ha : x st with ⟨a, st₂⟩ | ⟨e', st₂⟩
    · rw [ha] at hrun
      obtain ⟨hst₂, hy⟩ := hx.ok hst ha
      rw [stateAfter, bind_ok _ hy]
      exact (hf a).error hst₂ hrun
    · rw [ha] at hrun
      cases hrun
      exact (hx.error hst ha).extend (hgrows _)

/-- What a step reads of the state is the same for both. -/
theorem get_bind {f : PassState σ → PassStep σ α} {f' : PassState τ → PassStep τ α}
    (hf : ∀ (st : PassState σ) (x : τ), Leads h start g calm (f st) (f' (st.onHost x))) :
    Leads h start g calm (get >>= f) (get >>= f') where
  grows st' := (hf (st'.onHost start) st'.host).grows st'
  ok {st _ _} hst hrun := (hf st _).ok hst hrun
  error {st _ _} hst hrun := (hf st _).error hst hrun

theorem forM {f : β → PassStep σ PUnit} {f' : β → PassStep τ PUnit}
    (hf : ∀ b, Leads h start g calm (f b) (f' b)) (l : List β) :
    Leads h start g calm (l.forM f) (l.forM f') := by
  induction l with
  | nil => exact .pure ()
  | cons b rest ih => exact (hf b).bind fun _ => ih

/-- A step that always comes to its end. -/
theorem of_ok {x : PassStep σ α} {y : PassStep τ α} {a : α} {after : PassState σ → PassState σ}
    {after' : PassState τ → PassState τ} (hx : ∀ st, x st = .ok a (after st))
    (hy : ∀ st', y st' = .ok a (after' st'))
    (hgrows : ∀ st', st'.transcript <+: (after' st').transcript)
    (hfollows : ∀ {st}, Follows h start st → Follows h start (after st))
    (htwin : ∀ st, (after st).twin g calm = after' (st.twin g calm)) :
    Leads h start g calm x y where
  grows st' := by
    rw [stateAfter_ok (hy st')]
    exact hgrows st'
  ok {st st₁ b} hst hrun := by
    rw [hx] at hrun
    cases hrun
    exact ⟨hfollows hst, by rw [hy, htwin]⟩
  error {st st₁ e} hst hrun := by
    rw [hx] at hrun
    cases hrun

end Leads

variable {h : Host σ} {start : σ} {g : Host τ} {calm : τ} {policy : Policy}

theorem leads_record (change : Metrics → Metrics) :
    Leads h start g calm (record change) (record change) :=
  .of_ok (record_run change) (record_run change) (fun _ => List.prefix_refl _)
    (fun hst => hst.recorded change) fun _ => rfl

theorem leads_tell (e : PassEvent) : Leads h start g calm (tell h e) (tell g e) :=
  .of_ok (tell_run h e) (tell_run g e) (fun _ => List.prefix_append _ _) (fun hst => hst.told e)
    fun _ => twin_told e

theorem leads_report (d : Diagnostic) : Leads h start g calm (report h d) (report g d) :=
  .of_ok (report_run h d) (report_run g d)
    (fun st' => by rw [reported_transcript]; exact List.prefix_append _ _)
    (fun hst => hst.reported d) fun _ => twin_reported d

theorem leads_accept (i : PassInput) (w : Wrapper) :
    Leads h start g calm (accept h i w) (accept g i.uninterrupted w) :=
  .of_ok (accept_run h i w) (accept_run g i.uninterrupted w)
    (fun st' => by rw [entered_transcript]; exact List.prefix_append _ _)
    (fun hst => hst.entered i w) fun _ => twin_entered i w

/-- The host that may stop the pass is asked whether it does, the calm one says no. -/
theorem leads_checkCancelled (hg : g.CalmlyAnswersBy calm policy) (i : PassInput) (turn : Turn) :
    Leads h start g calm (checkCancelled h i turn) (checkCancelled g i.uninterrupted turn) := by
  have hcalm : ∀ st : PassState σ, checkCancelled g i.uninterrupted turn (st.twin g calm) =
      .ok () (st.twin g calm) := by
    intro st
    have hrunning : i.uninterrupted.stops g turn (st.twin g calm) = false := by
      rw [PassInput.stops, PassInput.uninterrupted, Bool.or_false]
      exact hg.running st.transcript
    rw [checkCancelled_run, hrunning]
    rfl
  constructor
  · intro st'
    rw [stateAfter, checkCancelled_run]
    cases i.uninterrupted.stops g turn st' <;> exact List.prefix_refl _
  · intro st st₁ a hst hrun
    rw [checkCancelled_run] at hrun
    split at hrun
    · cases hrun
    · cases hrun
      exact ⟨hst, hcalm st⟩
  · intro st st₁ e hst hrun
    rw [checkCancelled_run] at hrun
    split at hrun
    · cases hrun
      rw [stateAfter_ok (hcalm st)]
      exact .refl _
    · cases hrun

/-- Where a unit is not answered by cancelling, it is answered alike. -/
theorem leads_deliverUnit (hh : h.AnswersBy start policy) (hg : g.CalmlyAnswersBy calm policy)
    (u : Delivery) : Leads h start g calm (deliverUnit h u) (deliverUnit g u) := by
  have hgrows : ∀ st' : PassState τ,
      st'.transcript <+: (stateAfter (deliverUnit g u) st').transcript := by
    intro st'
    have hoffered : st'.transcript <+: (st'.offered g u).transcript := List.prefix_append _ _
    rcases verdict_cases (st'.answerTo g u) with hu | hu | ⟨e, hu, he⟩
    · rw [stateAfter_ok (deliverUnit_of_taken hu), stored_transcript hu]
      exact List.prefix_append _ _
    · rw [stateAfter_error (deliverUnit_of_cancelled hu)]
      exact hoffered
    · rw [stateAfter_ok (deliverUnit_of_refused hu he), reported_transcript]
      exact hoffered.trans (List.prefix_append _ _)
  constructor
  · exact hgrows
  · intro st st₁ taken hst hrun
    rcases verdict_cases (st.answerTo h u) with hu | hu | ⟨e, hu, he⟩
    · cases (deliverUnit_of_taken hu).symm.trans hrun
      have heq := (twin_answerTo hh hg hst u).resolve_right (by rw [hu]; nofun)
      exact ⟨hst.stored u, by rw [deliverUnit_of_taken (heq.trans hu), twin_stored heq]⟩
    · cases (deliverUnit_of_cancelled hu).symm.trans hrun
    · cases (deliverUnit_of_refused hu he).symm.trans hrun
      have heq := (twin_answerTo hh hg hst u).resolve_right (by rw [hu]; simpa using he)
      refine ⟨(hst.offered u).reported _, ?_⟩
      rw [deliverUnit_of_refused (heq.trans hu) he, twin_reported, twin_offered heq]
  · intro st st₁ e hst hrun
    -- A unit at which the pass is stopped was neither taken nor reported.
    have hstopped : st₁.transcript.Precedes st.transcript := by
      rcases verdict_cases (st.answerTo h u) with hu | hu | ⟨e', hu, he⟩
      · cases (deliverUnit_of_taken hu).symm.trans hrun
      · cases (deliverUnit_of_cancelled hu).symm.trans hrun
        refine ⟨?_, ?_⟩ <;> simp [offered, hu]
      · cases (deliverUnit_of_refused hu he).symm.trans hrun
    exact hstopped.extend (hgrows (st.twin g calm))

/-! ### Wrappers and requests -/

section Answering

variable (hh : h.AnswersBy start policy) (hg : g.CalmlyAnswersBy calm policy) (i : PassInput)

include hh hg

theorem leads_deliver (location : Location) (w : Wrapper) :
    Leads h start g calm (deliver h i location w) (deliver g i.uninterrupted location w) := by
  refine .get_bind fun st x => ?_
  have hclaimed : (st.onHost x).claimed = st.claimed := rfl
  simp only [hclaimed]
  cases (st.claimed.lookup w.classKey).filter (· ≠ w.source) with
  | some owner => exact (leads_report _).bind fun _ => .pure _
  | none =>
    refine (leads_deliverUnit hh hg _).bind fun taken => ?_
    cases taken with
    | false => exact .pure _
    | true => exact (leads_accept i w).bind fun _ => .pure _

theorem leads_deliverAll (location : Location) (ws : List Wrapper) :
    Leads h start g calm (deliverAll h i location ws)
      (deliverAll g i.uninterrupted location ws) := by
  induction ws with
  | nil => exact .pure ()
  | cons w rest ih =>
    refine (leads_deliver hh hg i location w).bind fun taken => ?_
    cases taken with
    | false => exact .pure _
    | true => exact ih

omit hh in
theorem leads_build (r : Request) :
    Leads h start g calm (build h i r) (build g i.uninterrupted r) := by
  refine .get_bind fun st x => (leads_checkCancelled hg i _).bind fun _ => ?_
  have hexposure : (st.onHost x).exposure = st.exposure := rfl
  have hstopping : i.uninterrupted.damage.stopping? i.uninterrupted.program st.exposure r =
      i.damage.stopping? i.program st.exposure r := rfl
  have hneeded : i.uninterrupted.program.wrappersFor? i.uninterrupted.settings st.exposure r =
      i.program.wrappersFor? i.settings st.exposure r := rfl
  rw [hexposure, hstopping, hneeded]
  cases i.damage.stopping? i.program st.exposure r with
  | some message =>
    exact (leads_tell _).bind fun _ => (leads_report _).bind fun _ => .pure _
  | none =>
    cases i.program.wrappersFor? i.settings st.exposure r with
    | some wrappers => exact .pure _
    | none => exact (leads_report _).bind fun _ => .pure _

theorem leads_answer (r : Request) :
    Leads h start g calm (answer h i r) (answer g i.uninterrupted r) :=
  (leads_build hg i r).bind fun ws => leads_deliverAll hh hg i r.location ws

theorem leads_answerAll (requests : List Request) :
    Leads h start g calm (answerAll h i requests) (answerAll g i.uninterrupted requests) := by
  induction requests with
  | nil => exact .pure ()
  | cons r rest ih =>
    refine .get_bind fun st x => (leads_checkCancelled hg i _).bind fun _ =>
      (leads_answer hh hg i r).bind fun _ => ?_
    refine .bind (.of_ok (fun _ => rfl) (fun _ => rfl) ?_ ?_ ?_) fun _ => ih
    · exact fun _ => List.prefix_refl _
    · exact fun hst => hst.counted
    · exact fun _ => rfl

/-! ### Whole passes -/

omit hh hg in
theorem leads_announce (requests : Requests) :
    Leads h start g calm (announce h i requests) (announce g i.uninterrupted requests) :=
  (Leads.forM (fun _ => leads_record _) _).bind fun _ =>
    (Leads.forM (fun _ => (leads_record _).bind fun _ => leads_tell _) _).bind fun _ =>
      leads_tell _

theorem leads_deliverTriggers :
    Leads h start g calm (deliverTriggers h i) (deliverTriggers g i.uninterrupted) := by
  unfold deliverTriggers
  have hsettings : i.uninterrupted.settings = i.settings := rfl
  rw [hsettings]
  split
  · exact (leads_checkCancelled hg i _).bind fun _ =>
      (leads_deliverUnit hh hg _).bind fun _ => .pure _
  · exact .pure ()

theorem leads_deliverExtensions :
    Leads h start g calm (deliverExtensions h i) (deliverExtensions g i.uninterrupted) := by
  refine .get_bind fun st x => (leads_checkCancelled hg i _).bind fun _ => .get_bind fun st x => ?_
  have hrender : i.uninterrupted.settings.renderExtensions (st.onHost x).factories =
      i.settings.renderExtensions st.factories := rfl
  simp only [hrender]
  cases i.settings.renderExtensions st.factories with
  | some text => exact (leads_deliverUnit hh hg _).bind fun _ => .pure _
  | none => exact .pure ()

/-- A pass over a host that may stop it leads the same pass over a calm one. -/
theorem leads_execute : Leads h start g calm (execute h i) (execute g i.uninterrupted) := by
  unfold execute
  have hdiscover : i.uninterrupted.program.discover i.uninterrupted.settings =
      i.program.discover i.settings := rfl
  rw [hdiscover]
  cases i.program.discover i.settings with
  | error e => exact .throw e
  | ok requests =>
    exact ((leads_announce i requests).bind fun _ => leads_deliverTriggers hh hg i).bind fun _ =>
      (leads_answerAll hh hg i requests.toList).bind fun _ => leads_deliverExtensions hh hg i

end Answering

end PassStep

end EventWrap
