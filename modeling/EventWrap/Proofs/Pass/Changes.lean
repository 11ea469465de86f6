import EventWrap.Proofs.Pass.Conversation
import Mathlib.Logic.Relation

/-!
# Changes of the state of a pass

While a pass answers a request, one of four things happens at a time: an event of failure is told,
a diagnostic is reported, a unit is refused, or a wrapper is delivered and entered. A property that
they keep is kept by every answer; with what happens before the first request and after the last
one, it holds at the end of every pass.
-/

namespace EventWrap

variable {σ : Type}

open PassStep

namespace PassState

/-- What can happen while a request is answered. -/
inductive Change (h : Host σ) (i : PassInput) (st : PassState σ) : PassState σ → Prop
  | failed (typeName message : String) : Change h i st (st.told h (.typeFailed typeName message))
  | reported (d : Diagnostic) : Change h i st (st.reported h d)
  | refused {u : Delivery} {e : HostError} (answer : st.answerTo h u = .error e) :
      Change h i st (st.offered h u)
  | delivered {location : Location} {w : Wrapper} (free : st.owner? w = none)
      (answer : st.answerTo h (unitOf i location w) = .ok ()) :
      Change h i st ((st.stored h (unitOf i location w)).entered h i w)

abbrev Changes (h : Host σ) (i : PassInput) : PassState σ → PassState σ → Prop :=
  Relation.ReflTransGen (Change h i)

variable (h : Host σ) (i : PassInput)

/-! ## Before the first request -/

/-- What was discovered was counted. -/
def requested (requests : Requests) (st : PassState σ) : PassState σ :=
  requests.toList.foldl (fun st r => st.recorded (·.recordRequest r.mode)) st

/-- A repeated request was counted, and told to be dropped. -/
def repeated (st : PassState σ) (r : Request) : PassState σ :=
  (st.recorded (·.recordDuplicate)).told h
    (.deduplicated (i.program.qualifiedName r.type) r.mode)

/-- What was discovered was counted and announced. -/
def announced (requests : Requests) (st : PassState σ) : PassState σ :=
  (requests.repeated.foldl (repeated h i) (st.requested requests)).told h
    (.started requests.ofInstances.length requests.ofStatics.length)

end PassState

namespace PassStep

open PassState

variable (h : Host σ) (i : PassInput) {st : PassState σ}

theorem forM_run {α : Type} {f : α → PassStep σ PUnit} {g : PassState σ → α → PassState σ}
    (hf : ∀ a st, f a st = .ok () (g st a)) (l : List α) (st : PassState σ) :
    l.forM f st = .ok () (l.foldl g st) := by
  induction l generalizing st with
  | nil => rfl
  | cons a rest ih =>
    rw [List.forM, bind_ok _ (hf a st)]
    exact ih (g st a)

theorem announce_run (requests : Requests) (st : PassState σ) :
    announce h i requests st = .ok () (st.announced h i requests) := by
  have hrequested : (requests.toList.forM fun r => record (·.recordRequest r.mode)) st =
      .ok () (st.requested requests) :=
    forM_run (fun _ _ => rfl) _ _
  have hrepeated : (requests.repeated.forM fun r => do
        record (·.recordDuplicate)
        tell h (.deduplicated (i.program.qualifiedName r.type) r.mode)) (st.requested requests) =
      .ok () (requests.repeated.foldl (repeated h i) (st.requested requests)) :=
    forM_run (fun _ _ => rfl) _ _
  exact (bind_ok _ hrequested).trans (bind_ok _ hrepeated)

theorem prepare_run (requests : Requests) (st : PassState σ) :
    prepare h i requests st = deliverTriggers h i (st.announced h i requests) := by
  rw [prepare, bind_ok _ (announce_run h i requests st)]

/-- A pass up to the end of some of its answers. -/
def upTo (requests : Requests) (done : List Request) : PassStep σ Unit := do
  prepare h i requests
  answerAll h i done

variable {h i}

theorem upTo_ok {requests : Requests} {done : List Request} {last : PassState σ}
    (hrun : upTo h i requests done st = .ok () last) :
    ∃ opened, prepare h i requests st = .ok () opened ∧
      answerAll h i done opened = .ok () last := by
  rw [upTo, bind_run] at hrun
  rcases hprepare : prepare h i requests st with ⟨⟨⟩, opened⟩ | ⟨e, opened⟩
  · rw [hprepare] at hrun
    exact ⟨opened, rfl, hrun⟩
  · rw [hprepare] at hrun
    cases hrun

theorem upTo_of_prepare {requests : Requests} {opened : PassState σ}
    (hprepare : prepare h i requests st = .ok () opened) (done : List Request) :
    upTo h i requests done st = answerAll h i done opened := by
  rw [upTo, bind_ok _ hprepare]

variable (h i)

/-- After all answers a pass delivers the extensions. -/
theorem execute_run_upTo {requests : Requests} (hd : i.program.discover i.settings = .ok requests)
    (st : PassState σ) :
    execute h i st = (upTo h i requests requests.toList >>= fun _ => deliverExtensions h i) st := by
  rw [execute_run h i hd, upTo, bind_run, bind_run]
  rcases prepare h i requests st with ⟨⟨⟩, opened⟩ | ⟨e, opened⟩
  · simp only
    rcases answerAll h i requests.toList opened with ⟨⟨⟩, answered⟩ | ⟨e, answered⟩ <;> rfl
  · rfl

/-! ## Steps as changes -/

/-- A unit is stored, or the state changes in other ways. -/
theorem stored_or_changes (u : Delivery) (st : PassState σ) :
    st.answerTo h u = .ok () ∧ deliverUnit h u st = .ok true (st.stored h u) ∨
      Changes h i st (stateAfter (deliverUnit h u) st) := by
  have hrefused : ∀ {e}, st.answerTo h u = .error e → PassState.Change h i st (st.offered h u) :=
    .refused
  rcases verdict_cases (st.answerTo h u) with hu | hu | ⟨e, hu, he⟩
  · exact .inl ⟨hu, deliverUnit_of_taken hu⟩
  · rw [stateAfter_error (deliverUnit_of_cancelled hu)]
    exact .inr (.single (hrefused hu))
  · rw [stateAfter_ok (deliverUnit_of_refused hu he)]
    exact .inr (.tail (.single (hrefused hu)) (.reported _))

theorem changes_deliver (location : Location) (w : Wrapper) (st : PassState σ) :
    Changes h i st (stateAfter (deliver h i location w) st) := by
  cases hfree : st.owner? w with
  | some owner =>
    rw [stateAfter_ok (deliver_of_clash hfree)]
    exact .single (.reported _)
  | none =>
    have hrefused : ∀ {e}, st.answerTo h (unitOf i location w) = .error e →
        PassState.Change h i st (st.offered h (unitOf i location w)) := .refused
    rcases verdict_cases (st.answerTo h (unitOf i location w)) with hu | hu | ⟨e, hu, he⟩
    · rw [stateAfter_ok (deliver_of_taken hfree hu)]
      exact .single (.delivered hfree hu)
    · rw [stateAfter_error (deliver_of_cancelled hfree hu)]
      exact .single (hrefused hu)
    · rw [stateAfter_ok (deliver_of_refused hfree hu he)]
      exact .tail (.single (hrefused hu)) (.reported _)

theorem changes_deliverAll (location : Location) (ws : List Wrapper) (st : PassState σ) :
    Changes h i st (stateAfter (deliverAll h i location ws) st) := by
  induction ws generalizing st with
  | nil => exact .refl
  | cons w rest ih =>
    have hfirst := changes_deliver h i location w st
    rw [stateAfter, deliverAll_cons_run]
    rcases hw : deliver h i location w st with ⟨taken, st'⟩ | ⟨e, st'⟩
    · rw [stateAfter_ok hw] at hfirst
      cases taken with
      | true => exact hfirst.trans (ih st')
      | false => exact hfirst
    · rwa [stateAfter_error hw] at hfirst

theorem changes_build (r : Request) (st : PassState σ) :
    Changes h i st (stateAfter (build h i r) st) := by
  by_cases hc : i.stops h (.wrappers st.processed) st
  · rw [stateAfter, build_run, if_pos hc]
  · rw [stateAfter, build_run, if_neg hc]
    cases i.damage.stopping? i.program st.exposure r with
    | some message => exact .tail (.single (.failed _ _)) (.reported _)
    | none =>
      cases i.program.wrappersFor? i.settings st.exposure r with
      | some ws => exact .refl
      | none => exact .single (.reported _)

theorem changes_answer (r : Request) (st : PassState σ) :
    Changes h i st (stateAfter (answer h i r) st) := by
  have hbuild := changes_build h i r st
  rw [stateAfter, answer_run]
  rcases hb : build h i r st with ⟨ws, st'⟩ | ⟨e, st'⟩
  · rw [stateAfter_ok hb] at hbuild
    exact hbuild.trans (changes_deliverAll h i r.location ws st')
  · rwa [stateAfter_error hb] at hbuild

/-- At the end the extensions are stored, or the state changes in other ways. -/
theorem stored_or_changes_of_deliverExtensions (h : Host σ) (i : PassInput) (st : PassState σ) :
    (∃ text, st.answerTo h (extensionsUnitOf i st.factories text) = .ok () ∧
      deliverExtensions h i st = .ok () (st.stored h (extensionsUnitOf i st.factories text))) ∨
      Changes h i st (stateAfter (deliverExtensions h i) st) := by
  rw [stateAfter, deliverExtensions_run]
  by_cases hc : i.stops h (.request st.processed) st
  · rw [if_pos hc]
    exact .inr .refl
  · rw [if_neg hc]
    cases i.settings.renderExtensions st.factories with
    | none => exact .inr .refl
    | some text =>
      rcases stored_or_changes h i (extensionsUnitOf i st.factories text) st with
        ⟨hanswer, hstored⟩ | hchanges
      · refine .inl ⟨text, hanswer, ?_⟩
        simp only [hstored]
      · right
        simp only
        rcases hu : deliverUnit h (extensionsUnitOf i st.factories text) st with
          ⟨taken, st'⟩ | ⟨e, st'⟩
        · rwa [stateAfter_ok hu] at hchanges
        · rwa [stateAfter_error hu] at hchanges

end PassStep

/-! ## Kept properties -/

namespace PassState

/-- A property that counting and announcing keep holds when the requests were announced. -/
theorem announced_induction {h : Host σ} {i : PassInput} {requests : Requests} {st : PassState σ}
    {I : PassState σ → Prop}
    (hrequest : ∀ {st : PassState σ} {mode}, I st → I (st.recorded (·.recordRequest mode)))
    (hrepeated : ∀ {st : PassState σ} {r}, I st → I (repeated h i st r))
    (hstarted : ∀ {st : PassState σ} {n m}, I st → I (st.told h (.started n m)))
    (hst : I st) : I (st.announced h i requests) := by
  have hrequested : I (st.requested requests) :=
    List.foldlRecOn requests.toList _ hst fun _ hst _ _ => hrequest hst
  exact hstarted (List.foldlRecOn requests.repeated _ hrequested fun _ hst _ _ => hrepeated hst)

/-- A property that is kept while a request is answered. -/
structure Stable (h : Host σ) (i : PassInput) (I : PassState σ → Prop) : Prop where
  change {st st' : PassState σ} : Change h i st st' → I st → I st'

namespace Stable

variable {h : Host σ} {i : PassInput} {I : PassState σ → Prop} {st : PassState σ}
  (hI : Stable h i I)

include hI

theorem changes {st st' : PassState σ} (hchanges : Changes h i st st') (hst : I st) : I st' := by
  induction hchanges with
  | refl => exact hst
  | tail _ hlast ih => exact hI.change hlast ih

theorem deliverUnit {u : Delivery} (hstored : st.answerTo h u = .ok () → I (st.stored h u))
    (hst : I st) : I (stateAfter (deliverUnit h u) st) := by
  rcases stored_or_changes h i u st with ⟨hu, hrun⟩ | hchanges
  · rw [stateAfter_ok hrun]
    exact hstored hu
  · exact hI.changes hchanges hst

theorem answer (r : Request) (hst : I st) : I (stateAfter (answer h i r) st) :=
  hI.changes (changes_answer h i r st) hst

theorem deliverTriggers
    (hstored : st.answerTo h (triggersUnitOf i) = .ok () → I (st.stored h (triggersUnitOf i)))
    (hst : I st) : I (stateAfter (deliverTriggers h i) st) := by
  have hunit := hI.deliverUnit hstored hst
  by_cases hb : i.settings.emitBootstrap
  · by_cases hc : i.stops h .triggers st
    · rwa [stateAfter, deliverTriggers_run, if_pos hb, if_pos hc]
    · rw [stateAfter, deliverTriggers_run, if_pos hb, if_neg hc]
      rcases hu : PassStep.deliverUnit h (triggersUnitOf i) st with ⟨taken, st'⟩ | ⟨e, st'⟩
      · rwa [stateAfter_ok hu] at hunit
      · rwa [stateAfter_error hu] at hunit
  · rwa [stateAfter, deliverTriggers_run, if_neg hb]

theorem deliverExtensions
    (hstored : ∀ text, st.answerTo h (extensionsUnitOf i st.factories text) = .ok () →
      I (st.stored h (extensionsUnitOf i st.factories text)))
    (hst : I st) : I (stateAfter (deliverExtensions h i) st) := by
  by_cases hc : i.stops h (.request st.processed) st
  · rwa [stateAfter, deliverExtensions_run, if_pos hc]
  · rw [stateAfter, deliverExtensions_run, if_neg hc]
    cases i.settings.renderExtensions st.factories with
    | none => exact hst
    | some text =>
      have hunit := hI.deliverUnit (hstored text) hst
      simp only
      rcases hu : PassStep.deliverUnit h (extensionsUnitOf i st.factories text) st with
        ⟨taken, st'⟩ | ⟨e, st'⟩
      · rwa [stateAfter_ok hu] at hunit
      · rwa [stateAfter_error hu] at hunit

end Stable

/-- A property that is kept while requests are answered and counted. -/
structure Kept (h : Host σ) (i : PassInput) (I : PassState σ → Prop) : Prop extends
    Stable h i I where
  counted {st : PassState σ} : I st → I st.counted

namespace Kept

variable {h : Host σ} {i : PassInput} {I : PassState σ → Prop} {st : PassState σ}
  (hI : Kept h i I)

include hI

theorem answerAll (requests : List Request) (hst : I st) :
    I (stateAfter (answerAll h i requests) st) :=
  stateAfter_answerAll h i (I := I) (fun r _ => hI.answer r) hI.counted requests hst

variable {start : σ} {requests : Requests}

/-- What holds when the requests were announced, and is kept by all that follows, holds after some
answers. -/
theorem upTo
    (hstored : ∀ {st : PassState σ}, st.answerTo h (triggersUnitOf i) = .ok () → I st →
      I (st.stored h (triggersUnitOf i)))
    (hannounced : I (PassState.announced h i requests { host := start })) (done : List Request) :
    I (stateAfter (upTo h i requests done) { host := start }) := by
  have htriggers := hI.deliverTriggers (fun hu => hstored hu hannounced) hannounced
  rw [stateAfter, PassStep.upTo, bind_run, prepare_run]
  rcases hprepare : PassStep.deliverTriggers h i (PassState.announced h i requests { host := start })
    with ⟨⟨⟩, opened⟩ | ⟨e, opened⟩
  · rw [stateAfter_ok hprepare] at htriggers
    exact hI.answerAll done htriggers
  · rwa [stateAfter_error hprepare] at htriggers

/-- What holds when the requests were announced, and is kept by all that follows, holds at the end
of the pass. -/
theorem execute (hd : i.program.discover i.settings = .ok requests)
    (hstored : ∀ {st : PassState σ} {u : Delivery}, u.kind.isWrapper = false → u.wrapper = none →
      st.answerTo h u = .ok () → I st → I (st.stored h u))
    (hannounced : I (PassState.announced h i requests { host := start })) :
    I (stateAfter (execute h i) { host := start }) := by
  have hanswered := hI.upTo (fun hu hst => hstored rfl rfl hu hst) hannounced requests.toList
  rw [stateAfter, execute_run_upTo h i hd, bind_run]
  rcases hanswers : PassStep.upTo h i requests requests.toList { host := start } with
    ⟨⟨⟩, answered⟩ | ⟨e, answered⟩
  · rw [stateAfter_ok hanswers] at hanswered
    exact hI.deliverExtensions (fun text hu => hstored rfl rfl hu hanswered) hanswered
  · rwa [stateAfter_error hanswers] at hanswered

end Kept

/-! ## The conversation of a pass -/

theorem kept_follows (h : Host σ) (i : PassInput) (start : σ) : Kept h i (Follows h start) where
  change {st st'} hchange hst := by
    cases hchange with
    | failed => exact hst.told _
    | reported d => exact hst.reported d
    | refused => exact hst.offered _
    | delivered => exact (hst.stored _).entered i _
  counted hst := hst.counted

theorem follows_announced (h : Host σ) (i : PassInput) (start : σ) (requests : Requests) :
    Follows h start (PassState.announced h i requests { host := start }) :=
  announced_induction (fun hst => hst.recorded _) (fun hst => (hst.recorded _).told _)
    (fun hst => hst.told _) .initial

theorem follows_upTo (h : Host σ) (i : PassInput) (start : σ) (requests : Requests)
    (done : List Request) :
    Follows h start (stateAfter (upTo h i requests done) { host := start }) :=
  (kept_follows h i start).upTo (fun _ hst => hst.stored _) (follows_announced h i start requests)
    done

theorem follows_execute (h : Host σ) (i : PassInput) (start : σ) :
    Follows h start (stateAfter (execute h i) { host := start }) := by
  cases hd : i.program.discover i.settings with
  | error e =>
    rw [stateAfter_error (execute_run_of_error h i hd _)]
    exact .initial
  | ok requests =>
    exact (kept_follows h i start).execute hd (fun _ _ _ hst => hst.stored _)
      (follows_announced h i start requests)

/-! ## The extensions come last -/

/-- The extensions were not delivered yet. -/
def LacksExtensions (st : PassState σ) : Prop :=
  ∀ u ∈ st.transcript.taken, ∀ n, u.kind ≠ .extensions n

variable {h : Host σ} {i : PassInput} {st : PassState σ}

theorem LacksExtensions.of_taken {st' : PassState σ} (hst : st.LacksExtensions)
    (part : List Delivery) (htaken : st'.transcript.taken = st.transcript.taken ++ part)
    (hpart : ∀ u ∈ part, ∀ n, u.kind ≠ .extensions n) : st'.LacksExtensions := by
  intro u hu
  rw [htaken] at hu
  rcases List.mem_append.1 hu with hu | hu
  · exact hst u hu
  · exact hpart u hu

theorem kept_lacksExtensions (h : Host σ) (i : PassInput) : Kept h i LacksExtensions where
  change {st st'} hchange hst := by
    cases hchange with
    | failed => exact hst.of_taken [] (by simp [told]) (by simp)
    | reported d =>
      refine hst.of_taken [] ?_ (by simp)
      rw [reported_transcript, Transcript.taken_append]
      rfl
    | refused hu => exact hst.of_taken [] (by simp [offered, hu]) (by simp)
    | @delivered location w hfree hu =>
      refine hst.of_taken [unitOf i location w] ?_ (by simp [unitOf])
      rw [entered_transcript, Transcript.taken_append, stored_taken hu]
      simp
  counted hst := hst

theorem lacksExtensions_announced (requests : Requests) (hst : st.LacksExtensions) :
    (st.announced h i requests).LacksExtensions := by
  have htold : ∀ {st : PassState σ} (e : PassEvent), st.LacksExtensions →
      (st.told h e).LacksExtensions :=
    fun e hst => hst.of_taken [] (by simp [told]) (by simp)
  exact announced_induction (fun hst => hst) (fun hst => htold _ hst) (fun hst => htold _ hst) hst

/-- While requests are answered the extensions are not delivered. -/
theorem lacksExtensions_upTo (h : Host σ) (i : PassInput) (start : σ) (requests : Requests)
    (done : List Request) :
    LacksExtensions (stateAfter (upTo h i requests done) { host := start }) := by
  have hannounced : LacksExtensions (PassState.announced h i requests { host := start }) := by
    apply lacksExtensions_announced
    simp [LacksExtensions, Transcript.taken]
  refine (kept_lacksExtensions h i).upTo (fun hu hst => ?_) hannounced done
  exact hst.of_taken _ (stored_taken hu) (by simp [triggersUnitOf])

end PassState

namespace PassInput

open PassState

/-- All that a host was asked and told in a pass, and all its answers, are in the transcript. -/
theorem follows_run (h : Host σ) (i : PassInput) (start : σ) :
    (i.run h start).transcript.IsConversation h start ∧
      (i.run h start).host = h.after start (i.run h start).transcript := by
  have hfollows := follows_execute h i start
  rcases hx : PassStep.execute h i { host := start } with ⟨⟨⟩, st⟩ | ⟨e, st⟩
  · rw [stateAfter_ok hx] at hfollows
    rw [run_of_ok hx]
    exact ⟨(hfollows.told st.ending).answers, (hfollows.told st.ending).host⟩
  · rw [stateAfter_error hx] at hfollows
    rw [run, steps_of_error hx]
    cases e with
    | missingHolder name => exact ⟨hfollows.answers, hfollows.host⟩
    | cancelled => exact ⟨(hfollows.told _).answers, (hfollows.told _).host⟩

end PassInput

end EventWrap
