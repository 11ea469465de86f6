import EventWrap.Proofs.Pass.Changes

/-!
# Passes side by side

Two passes over one program go side by side when their states are kept related by all that can
happen in them: what is told, reported and offered, and what becomes of the delivered wrappers. The
hosts may be of different kinds, and the units may differ in their texts. Related states then lead
to related states, with the same answers, until the first pass has gone through something that the
second one need not follow.
-/

namespace EventWrap

variable {σ τ : Type}

open PassState

/-! ## Transcripts grow -/

namespace PassState

theorem Change.transcript {h : Host σ} {i : PassInput} {st st' : PassState σ}
    (hchange : Change h i st st') : st.transcript <+: st'.transcript := by
  cases hchange with
  | failed => exact List.prefix_append _ _
  | reported d =>
    rw [reported_transcript]
    exact List.prefix_append _ _
  | refused => exact List.prefix_append _ _
  | delivered _ hu =>
    rw [entered_transcript, stored_transcript hu, List.append_assoc]
    exact List.prefix_append _ _

theorem stable_transcript (h : Host σ) (i : PassInput) (t : Transcript) :
    Stable h i fun st => t <+: st.transcript :=
  ⟨fun hchange hst => hst.trans hchange.transcript⟩

end PassState

namespace PassStep

/-- Enters a wrapper when it was taken. -/
def enter (h : Host σ) (i : PassInput) (w : Wrapper) : Bool → PassStep σ Bool
  | true => do
    accept h i w
    return true
  | false => return false

theorem enter_run (h : Host σ) (i : PassInput) (w : Wrapper) (taken : Bool) (st : PassState σ) :
    enter h i w taken st = .ok taken (if taken then st.entered h i w else st) := by
  cases taken with
  | true => exact bind_ok _ (accept_run h i w st)
  | false => rfl

/-- A wrapper whose class is free is offered, and entered when it is taken. -/
theorem deliver_of_free {h : Host σ} {i : PassInput} {location : Location} {w : Wrapper}
    {st : PassState σ} (hfree : st.owner? w = none) :
    deliver h i location w st = (deliverUnit h (unitOf i location w) >>= enter h i w) st := by
  unfold deliver
  rw [get_bind_run]
  have henter : enter h i w = fun taken => if taken then (do accept h i w; return true)
      else return false := by
    funext taken
    cases taken <;> rfl
  rw [owner?] at hfree
  rw [hfree, henter]

/-- Where a pass is not to stop, it answers the next request, counts it and goes on. -/
theorem answerAll_of_running {h : Host σ} {i : PassInput} {r : Request} {rest : List Request}
    {st : PassState σ} (hrunning : ¬i.stops h (.request st.processed) st) :
    answerAll h i (r :: rest) st =
      (answer h i r >>= fun _ => do modify (·.counted); answerAll h i rest) st := by
  rw [answerAll_cons_run, if_neg hrunning]
  simp only [bind_run]
  rcases answer h i r st with ⟨⟨⟩, st'⟩ | ⟨e, st'⟩ <;> rfl

/-- Where a pass is not to stop at its end, the extensions are offered if there are any. -/
theorem deliverExtensions_of_running {h : Host σ} {i : PassInput} {st : PassState σ}
    (hrunning : ¬i.stops h (.request st.processed) st) :
    deliverExtensions h i st = (match i.settings.renderExtensions st.factories with
      | some text => do let _ ← deliverUnit h (extensionsUnitOf i st.factories text)
      | none => pure () : PassStep σ Unit) st := by
  rw [deliverExtensions_run, if_neg hrunning]
  cases i.settings.renderExtensions st.factories with
  | none => rfl
  | some text =>
    simp only [bind_run]
    cases deliverUnit h (extensionsUnitOf i st.factories text) st <;> rfl

/-- Where a pass that writes the triggers is not to stop, it offers them. -/
theorem deliverTriggers_of_running {h : Host σ} {i : PassInput} {st : PassState σ}
    (hoffers : i.settings.emitBootstrap) (hrunning : ¬i.stops h .triggers st) :
    deliverTriggers h i st =
      (do let _ ← deliverUnit h (triggersUnitOf i) : PassStep σ Unit) st := by
  rw [deliverTriggers_run, if_pos hoffers, if_neg hrunning]
  simp only [bind_run]
  cases deliverUnit h (triggersUnitOf i) st <;> rfl

/-- A step that only adds to the transcript. -/
def Grows {α : Type} (x : PassStep σ α) : Prop :=
  ∀ st, st.transcript <+: (stateAfter x st).transcript

variable (h : Host σ) (i : PassInput)

/-- Whatever becomes of a unit, that it was offered stays in the transcript. -/
theorem offered_prefix_deliverUnit (u : Delivery) (st : PassState σ) :
    (st.offered h u).transcript <+: (stateAfter (deliverUnit h u) st).transcript := by
  rcases verdict_cases (st.answerTo h u) with hu | hu | ⟨e, hu, he⟩
  · rw [stateAfter_ok (deliverUnit_of_taken hu)]
    exact List.prefix_append _ _
  · exact (stateAfter_error (deliverUnit_of_cancelled hu)).symm ▸ List.prefix_refl _
  · rw [stateAfter_ok (deliverUnit_of_refused hu he), reported_transcript]
    exact List.prefix_append _ _

theorem grows_enter (w : Wrapper) (taken : Bool) : Grows (enter h i w taken) := by
  intro st
  rw [stateAfter_ok (enter_run h i w taken st)]
  cases taken with
  | true =>
    rw [if_pos rfl, entered_transcript]
    exact List.prefix_append _ _
  | false => exact List.prefix_refl _

theorem grows_deliverAll (location : Location) (ws : List Wrapper) :
    Grows (deliverAll h i location ws) := fun st =>
  (stable_transcript h i _).changes (changes_deliverAll h i location ws st) (List.prefix_refl _)

theorem grows_answerAll (requests : List Request) : Grows (answerAll h i requests) := fun st =>
  stateAfter_answerAll h i (I := fun st' => st.transcript <+: st'.transcript)
    (fun r _ hst => (stable_transcript h i _).answer r hst) (fun hst => hst) requests
    (List.prefix_refl _)

theorem grows_deliverExtensions : Grows (deliverExtensions h i) := by
  intro st
  rcases stored_or_changes_of_deliverExtensions h i st with ⟨text, hu, hrun⟩ | hchanges
  · rw [stateAfter_ok hrun, stored_transcript hu]
    exact List.prefix_append _ _
  · exact (stable_transcript h i _).changes hchanges (List.prefix_refl _)

end PassStep

/-! ## Steps that agree -/

namespace PassStep

variable (Lapsed : Transcript → Prop) (R : PassState σ → PassState τ → Prop)

/-- Two steps from two states come to the same end with related answers, in related states; or the
first pass has lapsed. -/
inductive Coincide {α β : Type} (Q : α → β → Prop) (x : PassStep σ α) (st : PassState σ)
    (y : PassStep τ β) (st' : PassState τ) : Prop
  | ok {a : α} {b : β} {last : PassState σ} {last' : PassState τ} (first : x st = .ok a last)
      (second : y st' = .ok b last') (answers : Q a b) (states : R last last')
  | error {e : PassError} {last : PassState σ} {last' : PassState τ}
      (first : x st = .error e last) (second : y st' = .error e last') (states : R last last')
  | lapsed (gone : Lapsed (stateAfter x st).transcript)

namespace Coincide

variable {Lapsed R} {α β γ δ : Type} {Q : α → β → Prop} {P : γ → δ → Prop} {x : PassStep σ α}
  {y : PassStep τ β} {st : PassState σ} {st' : PassState τ}

theorem pure {a : α} {b : β} (hab : Q a b) (hst : R st st') :
    Coincide Lapsed R Q (pure a) st (pure b) st' :=
  .ok rfl rfl hab hst

/-- Only what comes out of the steps counts. -/
theorem of_run {x₁ : PassStep σ α} {y₁ : PassStep τ β} {st₁ : PassState σ} {st₁' : PassState τ}
    (hxy : Coincide Lapsed R Q x₁ st₁ y₁ st₁') (hx : x st = x₁ st₁) (hy : y st' = y₁ st₁') :
    Coincide Lapsed R Q x st y st' := by
  cases hxy with
  | ok first second answers states =>
    exact .ok (hx.trans first) (hy.trans second) answers states
  | error first second states => exact .error (hx.trans first) (hy.trans second) states
  | lapsed gone =>
    refine .lapsed ?_
    rwa [stateAfter, hx]

/-- What follows a lapsed pass leaves it lapsed, since transcripts grow. -/
theorem bind (hlapses : ∀ {t t'}, t <+: t' → Lapsed t → Lapsed t') {f : α → PassStep σ γ}
    {g : β → PassStep τ δ} (hxy : Coincide Lapsed R Q x st y st') (hgrows : ∀ a, Grows (f a))
    (hfg : ∀ a b {st st'}, Q a b → R st st' → Coincide Lapsed R P (f a) st (g b) st') :
    Coincide Lapsed R P (x >>= f) st (y >>= g) st' := by
  cases hxy with
  | @ok a b last last' first second answers states =>
    cases hfg a b answers states with
    | ok first' second' answers' states' =>
      exact .ok ((bind_ok f first).trans first') ((bind_ok g second).trans second') answers' states'
    | error first' second' states' =>
      exact .error ((bind_ok f first).trans first') ((bind_ok g second).trans second') states'
    | lapsed gone =>
      refine .lapsed ?_
      rwa [stateAfter, bind_ok f first]
  | @error e _ _ first second states =>
    refine .error (e := e) ?_ ?_ states
    · rw [bind_run, first]
    · rw [bind_run, second]
  | lapsed gone =>
    refine .lapsed (hlapses ?_ gone)
    exact stateAfter_bind (I := fun last => (stateAfter x st).transcript <+: last.transcript)
      (List.prefix_refl _) fun a _ hlast => hlast.trans (hgrows a _)

end Coincide

end PassStep

/-! ## Related passes -/

/-- Units that two hosts answer alike in related states, unless the first pass lapses over the
answer. -/
structure PassState.Handed (h : Host σ) (h' : Host τ) (Lapsed : Transcript → Prop)
    (R : PassState σ → PassState τ → Prop) (st : PassState σ) (st' : PassState τ)
    (u u' : Delivery) : Prop where
  subject : u'.subject = u.subject
  location : u'.location = u.location
  answer : ¬Lapsed (st.offered h u).transcript → st'.answerTo h' u' = st.answerTo h u
  offered : ¬Lapsed (st.offered h u).transcript → R (st.offered h u) (st'.offered h' u')
  stored : ¬Lapsed (st.offered h u).transcript → st.answerTo h u = .ok () →
    R (st.stored h u) (st'.stored h' u')

/-- Two passes over one program, with related wrappers, keep a relation between their states until
the first one has lapsed. -/
structure PassInput.Simulates (h : Host σ) (i : PassInput) (h' : Host τ) (i' : PassInput)
    (Lapsed : Transcript → Prop) (V : Wrapper → Wrapper → Prop)
    (R : PassState σ → PassState τ → Prop) : Prop where
  lapses {t t'} : t <+: t' → Lapsed t → Lapsed t'
  program : i'.program = i.program
  discover : i'.program.discover i'.settings = i.program.discover i.settings
  source {w w'} : V w w' → w'.source = w.source
  name {w w'} : V w w' → w'.name = w.name
  owner? {st st' w w'} : R st st' → V w w' → st'.owner? w' = st.owner? w
  stops {st st'} : R st st' → ∀ turn, i'.stops h' turn st' = i.stops h turn st
  processed {st st'} : R st st' → st'.processed = st.processed
  stopping? {st st'} : R st st' → ∀ r,
    i'.damage.stopping? i'.program st'.exposure r = i.damage.stopping? i.program st.exposure r
  wrappersFor? {st st'} : R st st' → ∀ r, Option.Rel (List.Forall₂ V)
    (i.program.wrappersFor? i.settings st.exposure r)
    (i'.program.wrappersFor? i'.settings st'.exposure r)
  recorded {st st'} : R st st' → ∀ change, R (st.recorded change) (st'.recorded change)
  told {st st'} : R st st' → ∀ e, R (st.told h e) (st'.told h' e)
  reported {st st'} : R st st' → ∀ d, R (st.reported h d) (st'.reported h' d)
  counted {st st'} : R st st' → R st.counted st'.counted
  unitOf {st st' w w'} : R st st' → V w w' → ∀ location,
    st.Handed h h' Lapsed R st' (PassStep.unitOf i location w) (PassStep.unitOf i' location w')
  entered {st st' w w'} : R st st' → V w w' → R (st.entered h i w) (st'.entered h' i' w')
  extensionsUnitOf {st st'} : R st st' → Option.Rel
    (fun text text' => st.Handed h h' Lapsed R st' (PassStep.extensionsUnitOf i st.factories text)
      (PassStep.extensionsUnitOf i' st'.factories text'))
    (i.settings.renderExtensions st.factories) (i'.settings.renderExtensions st'.factories)

namespace PassInput.Simulates

open PassStep

variable {h : Host σ} {i : PassInput} {h' : Host τ} {i' : PassInput} {Lapsed : Transcript → Prop}
  {V : Wrapper → Wrapper → Prop} {R : PassState σ → PassState τ → Prop} {st : PassState σ}
  {st' : PassState τ} (hs : i.Simulates h h' i' Lapsed V R)

include hs

theorem qualifiedName (id : TypeId) : i'.program.qualifiedName id = i.program.qualifiedName id := by
  rw [hs.program]

theorem coincide_deliverUnit {u u' : Delivery} (hu : st.Handed h h' Lapsed R st' u u') :
    Coincide Lapsed R Eq (deliverUnit h u) st (deliverUnit h' u') st' := by
  by_cases hlapsed : Lapsed (st.offered h u).transcript
  · exact .lapsed (hs.lapses (offered_prefix_deliverUnit h u st) hlapsed)
  · have heq := hu.answer hlapsed
    rcases verdict_cases (st.answerTo h u) with hok | hstop | ⟨e, he, hne⟩
    · exact .ok (deliverUnit_of_taken hok) (deliverUnit_of_taken (heq.trans hok)) rfl
        (hu.stored hlapsed hok)
    · exact .error (deliverUnit_of_cancelled hstop) (deliverUnit_of_cancelled (heq.trans hstop))
        (hu.offered hlapsed)
    · have hrefusal : refusal u' e = refusal u e := by
        rw [refusal, refusal, hu.subject, hu.location]
      refine .ok (deliverUnit_of_refused he hne) (deliverUnit_of_refused (heq.trans he) hne) rfl ?_
      rw [hrefusal]
      exact hs.reported (hu.offered hlapsed) _

/-! ### Wrappers and requests -/

theorem coincide_deliver (hst : R st st') (location : Location) {w w' : Wrapper} (hw : V w w') :
    Coincide Lapsed R Eq (deliver h i location w) st (deliver h' i' location w') st' := by
  have howner := hs.owner? hst hw
  have hunit := hs.unitOf hst hw location
  cases hfree : st.owner? w with
  | some owner =>
    rw [hfree] at howner
    refine .ok (deliver_of_clash hfree) (deliver_of_clash howner) rfl ?_
    rw [clash, clash, hs.qualifiedName, hs.qualifiedName, hs.source hw, hs.name hw]
    exact hs.reported hst _
  | none =>
    rw [hfree] at howner
    refine .of_run ?_ (deliver_of_free hfree) (deliver_of_free howner)
    refine (hs.coincide_deliverUnit hunit).bind hs.lapses ?_ ?_
    · exact fun taken st => grows_enter h i w taken st
    · rintro taken _ st st' rfl hst
      refine .ok (enter_run h i w taken st) (enter_run h' i' w' taken st') rfl ?_
      cases taken with
      | true => exact hs.entered hst hw
      | false => exact hst

theorem coincide_deliverAll (hst : R st st') (location : Location) {ws ws' : List Wrapper}
    (hws : List.Forall₂ V ws ws') :
    Coincide Lapsed R Eq (deliverAll h i location ws) st (deliverAll h' i' location ws') st' := by
  induction hws generalizing st st' with
  | nil => exact .pure rfl hst
  | @cons w w' rest rest' hw _ ih =>
    refine (hs.coincide_deliver hst location hw).bind hs.lapses ?_ ?_
    · rintro (_ | _)
      · exact fun _ => List.prefix_refl _
      · exact grows_deliverAll h i location rest
    · rintro (_ | _) _ st st' rfl hst
      · exact .pure rfl hst
      · exact ih hst

theorem coincide_build (hst : R st st') (r : Request) :
    Coincide Lapsed R (List.Forall₂ V) (build h i r) st (build h' i' r) st' := by
  have hneeded := hs.wrappersFor? hst r
  have hbuild := build_run h i r st
  have hbuild' := build_run h' i' r st'
  rw [hs.processed hst, hs.stops hst, hs.stopping? hst, hs.qualifiedName] at hbuild'
  split at hbuild
  · next hstop =>
    rw [if_pos hstop] at hbuild'
    exact .error hbuild hbuild' hst
  · next hstop =>
    rw [if_neg hstop] at hbuild'
    cases hstopping : i.damage.stopping? i.program st.exposure r with
    | some message =>
      simp only [hstopping] at hbuild hbuild'
      exact .ok hbuild hbuild' .nil (hs.reported (hs.told hst _) _)
    | none =>
      simp only [hstopping] at hbuild hbuild'
      generalize i.program.wrappersFor? i.settings st.exposure r = needed,
        i'.program.wrappersFor? i'.settings st'.exposure r = needed' at hneeded hbuild hbuild'
      cases hneeded with
      | some hws => exact .ok hbuild hbuild' hws hst
      | none => exact .ok hbuild hbuild' .nil (hs.reported hst _)

theorem coincide_answer (hst : R st st') (r : Request) :
    Coincide Lapsed R Eq (answer h i r) st (answer h' i' r) st' :=
  (hs.coincide_build hst r).bind hs.lapses (fun ws => grows_deliverAll h i r.location ws)
    fun _ _ _ _ hws hst => hs.coincide_deliverAll hst r.location hws

theorem stops_request (hst : R st st') :
    i'.stops h' (.request st'.processed) st' = i.stops h (.request st.processed) st := by
  rw [hs.processed hst, hs.stops hst]

theorem coincide_answerAll (hst : R st st') (requests : List Request) :
    Coincide Lapsed R Eq (answerAll h i requests) st (answerAll h' i' requests) st' := by
  induction requests generalizing st st' with
  | nil => exact .pure rfl hst
  | cons r rest ih =>
    have hstops := hs.stops_request hst
    by_cases hstop : i.stops h (.request st.processed) st
    · refine .error (e := .cancelled) ?_ ?_ hst
      · rw [answerAll_cons_run, if_pos hstop]
      · rw [answerAll_cons_run, hstops, if_pos hstop]
    · refine .of_run ?_ (answerAll_of_running hstop) (answerAll_of_running (hstops ▸ hstop))
      refine (hs.coincide_answer hst r).bind hs.lapses ?_ ?_
      · exact fun _ st => grows_answerAll h i rest st.counted
      · intro _ _ st st' _ hst
        have hcounted : Coincide Lapsed R Eq (modify (·.counted)) st (modify (·.counted)) st' :=
          .ok rfl rfl rfl (hs.counted hst)
        exact hcounted.bind hs.lapses (fun _ => grows_answerAll h i rest) fun _ _ _ _ _ hst =>
          ih hst

/-! ### The rest of a pass -/

theorem announced (hst : R st st') (requests : Requests) :
    R (st.announced h i requests) (st'.announced h' i' requests) := by
  have hrequested : R (st.requested requests) (st'.requested requests) := by
    rw [requested, requested]
    generalize requests.toList = l
    induction l generalizing st st' with
    | nil => exact hst
    | cons r rest ih => exact ih (hs.recorded hst _)
  have hrepeated : ∀ (l : List Request) {st : PassState σ} {st' : PassState τ}, R st st' →
      R (l.foldl (repeated h i) st) (l.foldl (repeated h' i') st') := by
    intro l
    induction l with
    | nil => exact fun hst => hst
    | cons r rest ih =>
      intro st st' hst
      refine ih ?_
      rw [repeated, repeated, hs.qualifiedName]
      exact hs.told (hs.recorded hst _) _
  exact hs.told (hrepeated _ hrequested) _

theorem coincide_deliverExtensions (hst : R st st') :
    Coincide Lapsed R Eq (deliverExtensions h i) st (deliverExtensions h' i') st' := by
  have hunit := hs.extensionsUnitOf hst
  have hstops := hs.stops_request hst
  by_cases hstop : i.stops h (.request st.processed) st
  · refine .error (e := .cancelled) ?_ ?_ hst
    · rw [deliverExtensions_run, if_pos hstop]
    · rw [deliverExtensions_run, hstops, if_pos hstop]
  · refine .of_run ?_ (deliverExtensions_of_running hstop)
      (deliverExtensions_of_running (hstops ▸ hstop))
    generalize i.settings.renderExtensions st.factories = rendered,
      i'.settings.renderExtensions st'.factories = rendered' at hunit
    cases hunit with
    | none => exact .pure rfl hst
    | some hunit =>
      exact (hs.coincide_deliverUnit hunit).bind hs.lapses (fun _ _ => List.prefix_refl _)
        fun _ _ _ _ _ hst => .pure rfl hst

/-- From the first request on related passes agree. -/
theorem coincide_requests (hst : R st st') (requests : Requests) :
    Coincide Lapsed R Eq (do answerAll h i requests.toList; deliverExtensions h i) st
      (do answerAll h' i' requests.toList; deliverExtensions h' i') st' :=
  (hs.coincide_answerAll hst requests.toList).bind hs.lapses (fun _ => grows_deliverExtensions h i)
    fun _ _ _ _ _ hst => hs.coincide_deliverExtensions hst

/-- Where both passes offer the triggers or neither does, and they are answered alike, the passes
agree about them. -/
theorem coincide_deliverTriggers (hst : R st st')
    (hemit : i'.settings.emitBootstrap = i.settings.emitBootstrap)
    (hunit : i.settings.emitBootstrap →
      st.Handed h h' Lapsed R st' (triggersUnitOf i) (triggersUnitOf i')) :
    Coincide Lapsed R Eq (deliverTriggers h i) st (deliverTriggers h' i') st' := by
  have hstops := hs.stops hst .triggers
  by_cases hoffers : i.settings.emitBootstrap
  · by_cases hstop : i.stops h .triggers st
    · refine .error (e := .cancelled) ?_ ?_ hst
      · rw [deliverTriggers_run, if_pos hoffers, if_pos hstop]
      · rw [deliverTriggers_run, hemit, if_pos hoffers, hstops, if_pos hstop]
    · refine .of_run ?_ (deliverTriggers_of_running hoffers hstop)
        (deliverTriggers_of_running (hemit ▸ hoffers) (hstops ▸ hstop))
      exact (hs.coincide_deliverUnit (hunit hoffers)).bind hs.lapses (fun _ _ => List.prefix_refl _)
        fun _ _ _ _ _ hst => .pure rfl hst
  · refine .ok (a := ()) (b := ()) ?_ ?_ rfl hst
    · rw [deliverTriggers_run, if_neg hoffers]
    · rw [deliverTriggers_run, hemit, if_neg hoffers]

/-- Whole passes agree when they agree until the first request. -/
theorem coincide_execute_of_prepare {requests : Requests}
    (hd : i.program.discover i.settings = .ok requests)
    (hprepare : Coincide Lapsed R Eq (prepare h i requests) st (prepare h' i' requests) st') :
    Coincide Lapsed R Eq (execute h i) st (execute h' i') st' := by
  rw [execute_eq h i hd, execute_eq h' i' (hs.discover.trans hd)]
  refine hprepare.bind hs.lapses ?_ fun _ _ _ _ _ hst => hs.coincide_requests hst requests
  intro _ st
  exact stateAfter_bind (I := fun last => st.transcript <+: last.transcript)
    (grows_answerAll h i requests.toList st)
    fun _ _ hlast => hlast.trans (grows_deliverExtensions h i _)

/-- Whole passes agree when they agree about the triggers. -/
theorem coincide_execute (hst : R st st')
    (htriggers : ∀ requests, i.program.discover i.settings = .ok requests →
      Coincide Lapsed R Eq (deliverTriggers h i) (st.announced h i requests)
        (deliverTriggers h' i') (st'.announced h' i' requests)) :
    Coincide Lapsed R Eq (execute h i) st (execute h' i') st' := by
  cases hd : i.program.discover i.settings with
  | error e =>
    exact .error (execute_run_of_error h i hd st)
      (execute_run_of_error h' i' (hs.discover.trans hd) st') hst
  | ok requests =>
    exact hs.coincide_execute_of_prepare hd ((htriggers requests hd).of_run
      (prepare_run h i requests st) (prepare_run h' i' requests st'))

end PassInput.Simulates

end EventWrap
