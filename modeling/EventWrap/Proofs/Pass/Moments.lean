import EventWrap.Proofs.Pass.Progress
import EventWrap.Proofs.Pass.Requests
import EventWrap.Proofs.Wrapper.Grown

/-!
# Moments of a pass

Where a pass can stand between two deliveries, over any host: before it has begun, when it has said
what it found, when some requests are answered and of the next one some wrappers are delivered, and
at its end. At each moment what was delivered is a grown list for the requests, and the records of
the pass agree with it.
-/

namespace EventWrap

variable {σ : Type}

open PassStep

/-- The states in which a pass can be between two deliveries. -/
inductive PassInput.Moment (h : Host σ) (i : PassInput) (start : σ) : PassState σ → Prop
  | before : Moment h i start { host := start }
  | opened {requests : Requests} (discovered : i.program.discover i.settings = .ok requests) :
      Moment h i start (stateAfter (prepare h i requests) { host := start })
  | within {requests : Requests} {opened st built : PassState σ} {done later : List Request}
      {r : Request} {ws first : List Wrapper}
      (discovered : i.program.discover i.settings = .ok requests)
      (prepared : prepare h i requests { host := start } = .ok () opened)
      (order : requests.toList = done ++ r :: later)
      (answered : answerAll h i done opened = .ok () st)
      (build : build h i r st = .ok ws built) (part : first <+: ws) :
      Moment h i start (stateAfter (deliverAll h i r.location first) built)
  | last : Moment h i start (stateAfter (execute h i) { host := start })

namespace PassState

variable {h : Host σ} {i : PassInput} {st st' : PassState σ} {done : List Request} {r : Request}
  {ws : List Wrapper} {ds : List Diagnostic}

/-- What was delivered is a grown list for some requests, and the records agree with it. -/
structure Agrees (i : PassInput) (requests : List Request) (st : PassState σ) : Prop where
  grown : i.program.Grown i.settings requests st.transcript.wrappers
  exposure : st.exposure = exposureOf st.transcript.wrappers
  factories : st.factories = st.transcript.wrappers.filterMap (i.program.factory? i.settings)

namespace Agrees

theorem start (host : σ) : Agrees i [] { host } where
  grown := .none
  exposure := rfl
  factories := rfl

theorem progress {requests : List Request} (hst : Agrees i done st) (hp : st.Progress i st' ws ds)
    (hgrown : i.program.Grown i.settings requests (st.transcript.wrappers ++ ws)) :
    Agrees i requests st' where
  grown := hp.wrappers ▸ hgrown
  exposure := by rw [hp.exposure, hp.wrappers, exposureOf_append, hst.exposure]
  factories := by rw [hp.factories, hp.wrappers, List.filterMap_append, hst.factories]

/-- Nothing was delivered. -/
theorem idle (hst : Agrees i done st) (hp : st.Progress i st' [] ds) : Agrees i done st' := by
  apply hst.progress hp
  rw [List.append_nil]
  exact hst.grown

theorem mono {requests : List Request} (hst : Agrees i done st) (hsub : done ⊆ requests) :
    Agrees i requests st :=
  ⟨hst.grown.mono hsub, hst.exposure, hst.factories⟩

theorem counted (hst : Agrees i done st) : Agrees i done st.counted :=
  ⟨hst.grown, hst.exposure, hst.factories⟩

/-- A first part of the wrappers that a request needs was delivered. -/
theorem needed (hp : i.program.Acyclic) (hst : Agrees i done st)
    (hnew : r.target ∉ done.map Request.target)
    {needed : List Wrapper} (hneeded : i.program.wrappersFor? i.settings st.exposure r =
      some needed)
    (hpre : ws <+: needed) (hprogress : st.Progress i st' ws ds) : Agrees i (done ++ [r]) st' := by
  apply hst.progress hprogress
  rw [hst.exposure] at hneeded
  refine hst.grown.append_needed hp hneeded (fun r' hr' heq => hnew ?_) hpre
  exact List.mem_map.2 ⟨r', hr', heq⟩

/-! ## Steps -/

theorem deliverAll {needed first : List Wrapper} (hp : i.program.Acyclic) (hst : Agrees i done st)
    (hnew : r.target ∉ done.map Request.target)
    (hneeded : i.program.wrappersFor? i.settings st.exposure r = some needed)
    (hpre : first <+: needed) :
    Agrees i (done ++ [r]) (stateAfter (deliverAll h i r.location first) st) := by
  rcases deliverAll_cases h i r.location first st with
    ⟨st', hr, hprogress⟩ | ⟨st', delivered, d, hr, hpre', hprogress, -⟩ | ⟨st', delivered, hr,
      hpre', hprogress⟩
  · rw [stateAfter_ok hr]
    exact hst.needed hp hnew hneeded hpre hprogress
  · rw [stateAfter_ok hr]
    exact hst.needed hp hnew hneeded (hpre'.trans hpre) hprogress
  · rw [stateAfter_error hr]
    exact hst.needed hp hnew hneeded (hpre'.trans hpre) hprogress

theorem answer (hp : i.program.Acyclic) (hst : Agrees i done st)
    (hnew : r.target ∉ done.map Request.target) :
    Agrees i (done ++ [r]) (stateAfter (answer h i r) st) := by
  have hanswered := answer_cases h i r st
  rw [stateAfter]
  revert hanswered
  generalize PassStep.answer h i r st = result
  intro hanswered
  have hsub : done ⊆ done ++ [r] := List.subset_append_left _ _
  cases hanswered with
  | delivered hneeded hprogress => exact hst.needed hp hnew hneeded (List.prefix_refl _) hprogress
  | conflict hneeded hpre hprogress => exact hst.needed hp hnew hneeded hpre hprogress
  | nothing _ hprogress => exact (hst.idle hprogress).mono hsub
  | failed _ hprogress => exact (hst.idle hprogress).mono hsub
  | cancelled hneeded hpre hprogress => exact hst.needed hp hnew hneeded hpre hprogress
  | dropped => exact hst.mono hsub

/-- Answering requests for new types and modes keeps the agreement. -/
theorem answerAll (hp : i.program.Acyclic) (requests : List Request) (hst : Agrees i done st)
    (hnodup : ((done ++ requests).map Request.target).Nodup) :
    Agrees i (done ++ requests) (stateAfter (answerAll h i requests) st) := by
  induction requests generalizing done st with
  | nil =>
    rw [List.append_nil]
    exact hst
  | cons r rest ih =>
    have hsub : done ⊆ done ++ r :: rest := List.subset_append_left _ _
    have hsub' : done ++ [r] ⊆ done ++ r :: rest := Request.done_subset
    have hanswer := hst.answer (h := h) hp (Request.target_not_mem_done hnodup)
    have hrun := answerAll_cons_run h i r rest st
    by_cases hc : i.stops h (.request st.processed) st
    · rw [if_pos hc] at hrun
      rw [stateAfter_error hrun]
      exact hst.mono hsub
    · rw [if_neg hc] at hrun
      rcases hr : PassStep.answer h i r st with ⟨⟨⟩, st'⟩ | ⟨e, st'⟩
      · rw [hr] at hrun
        rw [stateAfter_ok hr] at hanswer
        have hlater := ih hanswer.counted (by rwa [List.append_assoc])
        rw [List.append_assoc, List.singleton_append] at hlater
        rw [stateAfter, hrun]
        exact hlater
      · rw [hr] at hrun
        rw [stateAfter_error hr] at hanswer
        rw [stateAfter_error hrun]
        exact hanswer.mono hsub'

theorem prepare (requests : Requests) (hst : Agrees i done st) :
    Agrees i done (stateAfter (prepare h i requests) st) := by
  rcases prepare_cases h i requests st with ⟨st', ds, hr, hp, -⟩ | ⟨st', hr, hp⟩
  · rw [stateAfter_ok hr]
    exact hst.idle hp
  · rw [stateAfter_error hr]
    exact hst.idle hp

theorem deliverExtensions (hst : Agrees i done st) :
    Agrees i done (stateAfter (deliverExtensions h i) st) := by
  rcases deliverExtensions_cases h i st with ⟨st', ds, hr, hp, -⟩ | ⟨st', hr, hp⟩
  · rw [stateAfter_ok hr]
    exact hst.idle hp
  · rw [stateAfter_error hr]
    exact hst.idle hp

end Agrees

end PassState

namespace PassInput

variable {h : Host σ} {i : PassInput} {start : σ} {st : PassState σ}

/-- A pass leaves records that agree with what it delivered for its requests. -/
theorem agrees_execute (h : Host σ) (start : σ) (hp : i.program.Acyclic) {requests : Requests}
    (hd : i.program.discover i.settings = .ok requests) :
    PassState.Agrees i requests.toList (stateAfter (execute h i) { host := start }) := by
  have hnodup := Program.nodup_targets hd
  have hopened := (PassState.Agrees.start (i := i) start).prepare (h := h) requests
  have hrun := execute_run h i hd { host := start }
  rcases hprepare : prepare h i requests { host := start } with ⟨⟨⟩, opened⟩ | ⟨e, opened⟩
  · rw [stateAfter_ok hprepare] at hopened
    have hanswered := hopened.answerAll (h := h) hp requests.toList hnodup
    rw [hprepare] at hrun
    rcases hanswers : answerAll h i requests.toList opened with ⟨⟨⟩, answered⟩ | ⟨e, answered⟩
    · rw [stateAfter_ok hanswers] at hanswered
      simp only [hanswers] at hrun
      have hclosed := hanswered.deliverExtensions (h := h)
      rw [stateAfter] at hclosed
      rw [stateAfter, hrun]
      exact hclosed
    · rw [stateAfter_error hanswers] at hanswered
      simp only [hanswers] at hrun
      rw [stateAfter_error hrun]
      exact hanswered
  · rw [stateAfter_error hprepare] at hopened
    rw [hprepare] at hrun
    rw [stateAfter_error hrun]
    exact hopened.mono (List.nil_subset _)

/-- After the last step of a pass nothing is delivered. -/
theorem wrappers_run (h : Host σ) (i : PassInput) (start : σ) :
    (i.run h start).transcript.wrappers =
      (stateAfter (execute h i) { host := start }).transcript.wrappers := by
  rw [Transcript.wrappers, taken_run, Transcript.wrappers]

/-- At every moment the records agree with what was delivered for the requests of the program. -/
theorem Moment.agrees (hp : i.program.Acyclic) (hst : Moment h i start st) :
    ∃ requests, (requests = [] ∨ ∃ rs, i.program.discover i.settings = .ok rs ∧
      requests = rs.toList) ∧
      PassState.Agrees i requests st := by
  cases hst with
  | before => exact ⟨[], .inl rfl, .start start⟩
  | opened hd => exact ⟨[], .inl rfl, (PassState.Agrees.start start).prepare _⟩
  | @within requests opened st built done later r ws first hd hprepare horder hanswered hbuild
    hpre =>
    refine ⟨_, .inr ⟨requests, hd, rfl⟩, ?_⟩
    have hnodup : ((done ++ r :: later).map Request.target).Nodup :=
      horder ▸ Program.nodup_targets hd
    have hnew := Request.target_not_mem_done hnodup
    have hsub : done ++ [r] ⊆ requests.toList := horder ▸ Request.done_subset
    have hopened := (PassState.Agrees.start (i := i) start).prepare (h := h) requests
    rw [stateAfter_ok hprepare] at hopened
    have hdone := hopened.answerAll (h := h) hp done (by
      rw [List.map_append] at hnodup
      exact hnodup.of_append_left)
    rw [stateAfter_ok hanswered, List.nil_append] at hdone
    have hbuilt := build_cases h i r st
    rw [hbuild] at hbuilt
    cases hbuilt with
    | needed hneeded => exact (hdone.deliverAll hp hnew hneeded hpre).mono hsub
    | nothing _ hprogress =>
      rw [List.prefix_nil.1 hpre]
      exact (hdone.idle hprogress).mono (List.Subset.trans (List.subset_append_left _ _) hsub)
    | failed _ hprogress =>
      rw [List.prefix_nil.1 hpre]
      exact (hdone.idle hprogress).mono (List.Subset.trans (List.subset_append_left _ _) hsub)
  | last =>
    cases hd : i.program.discover i.settings with
    | ok requests => exact ⟨_, .inr ⟨requests, rfl, rfl⟩, agrees_execute h start hp hd⟩
    | error e =>
      refine ⟨[], .inl rfl, ?_⟩
      rw [stateAfter_error (execute_run_of_error h i hd _)]
      exact .start start

end PassInput

end EventWrap
