import EventWrap.Host.Memory
import EventWrap.Proofs.Pass.Effects

/-!
# Hosts that never stop a pass

A host is steady over some of its states when it stays in them and asks for no end in any of them.
Over a steady host every step of a pass comes to its end, whichever units are refused.
-/

namespace EventWrap

/-- A host that stays in calm states, and in none of them wants a pass to stop. -/
structure Host.Steady {σ : Type} (h : Host σ) (calm : σ → Prop) : Prop where
  offer {x} : calm x → ∀ hintName text, calm (h.offer hintName text x).2
  report {x} : calm x → ∀ d, calm (h.report d x)
  notify {x} : calm x → ∀ e, calm (h.notify e x)
  running {x} : calm x → h.cancelled x = false
  answers {x} : calm x → ∀ hintName text, (h.offer hintName text x).1 ≠ .error .cancelled

theorem MemoryHost.steady : MemoryHost.host.Steady fun x => x.isCancelled = false where
  offer {x} hx hintName text := by
    simp only [host, MemoryHost.offer]
    split
    · exact hx
    · split <;> exact hx
  report hx _ := hx
  notify hx _ := hx
  running hx := hx
  answers {x} _ hintName text := by
    simp only [host, MemoryHost.offer, HintName.validate]
    cases HintName.fault? hintName with
    | some reason => simp
    | none =>
      simp only
      split <;> simp [HostError.alreadyAdded]

namespace PassStep

variable {σ : Type} {h : Host σ} {calm : σ → Prop} {i : PassInput} {p : Program} {s : Settings}

/-- A step that comes to its end, in a calm state, whenever it starts in one. -/
def Completes {α : Type} (calm : σ → Prop) (x : PassStep σ α) : Prop :=
  ∀ st : PassState σ, calm st.host → ∃ a st', x st = .ok a st' ∧ calm st'.host

theorem completes_pure {α : Type} (a : α) : Completes calm (pure a : PassStep σ α) :=
  fun st hst => ⟨a, st, rfl, hst⟩

theorem completes_get : Completes calm (get : PassStep σ (PassState σ)) :=
  fun st hst => ⟨st, st, rfl, hst⟩

theorem completes_modify {f : PassState σ → PassState σ} (hf : ∀ st, (f st).host = st.host) :
    Completes calm (modify f : PassStep σ Unit) := by
  intro st hst
  exact ⟨(), f st, rfl, (hf st).symm ▸ hst⟩

theorem Completes.bind {α β : Type} {x : PassStep σ α} {f : α → PassStep σ β}
    (hx : Completes calm x) (hf : ∀ a, Completes calm (f a)) : Completes calm (x >>= f) := by
  intro st hst
  obtain ⟨a, st₁, hrun, hst₁⟩ := hx st hst
  obtain ⟨b, st₂, hrun', hst₂⟩ := hf a st₁ hst₁
  exact ⟨b, st₂, (bind_ok f hrun).trans hrun', hst₂⟩

theorem Completes.forM {α : Type} {f : α → PassStep σ PUnit} (hf : ∀ a, Completes calm (f a))
    (l : List α) :
    Completes calm (l.forM f) := by
  induction l with
  | nil => exact completes_pure ()
  | cons a rest ih => exact (hf a).bind fun _ => ih

theorem completes_record (change : Metrics → Metrics) : Completes calm (record (σ := σ) change) :=
  completes_modify fun _ => rfl

variable (hh : h.Steady calm)

include hh

theorem completes_tell (e : PassEvent) : Completes calm (tell h e) :=
  fun st hst => ⟨(), st.told h e, rfl, hh.notify hst e⟩

theorem completes_report (d : Diagnostic) : Completes calm (report h d) :=
  fun st hst => ⟨(), st.reported h d, rfl, hh.report (hh.notify hst _) d⟩

theorem completes_checkCancelled (turn : Turn) :
    Completes calm (checkCancelled h (p.pass s) turn) := by
  intro st hst
  refine ⟨(), st, ?_, hst⟩
  rw [checkCancelled_run, stops_pass, hh.running hst]
  rfl

theorem completes_deliverUnit (u : Delivery) : Completes calm (deliverUnit h u) := by
  intro st hst
  have hoffered : calm (st.offered h u).host := hh.offer hst u.hintName u.text
  have hanswers : st.answerTo h u ≠ .error .cancelled := hh.answers hst u.hintName u.text
  rcases verdict_cases (st.answerTo h u) with hu | hu | ⟨e, hu, he⟩
  · exact ⟨_, _, deliverUnit_of_taken hu, hh.notify hoffered _⟩
  · exact absurd hu hanswers
  · exact ⟨_, _, deliverUnit_of_refused hu he, hh.report (hh.notify hoffered _) _⟩

/-! ## Wrappers and requests -/

theorem completes_accept (w : Wrapper) : Completes calm (accept h i w) := by
  intro st hst
  refine ⟨(), _, accept_run h i w st, ?_⟩
  rw [PassState.entered_host]
  exact hh.notify hst _

theorem completes_deliver (location : Location) (w : Wrapper) :
    Completes calm (deliver h i location w) := by
  refine completes_get.bind fun st => ?_
  simp only
  cases (st.claimed.lookup w.classKey).filter (· ≠ w.source) with
  | some owner => exact (completes_report hh _).bind fun _ => completes_pure _
  | none =>
    refine (completes_deliverUnit hh _).bind fun taken => ?_
    cases taken with
    | false => exact completes_pure _
    | true => exact (completes_accept hh w).bind fun _ => completes_pure _

theorem completes_deliverAll (location : Location) (ws : List Wrapper) :
    Completes calm (deliverAll h i location ws) := by
  induction ws with
  | nil => exact completes_pure ()
  | cons w rest ih =>
    refine (completes_deliver hh location w).bind fun taken => ?_
    cases taken with
    | false => exact completes_pure _
    | true => exact ih

theorem completes_build (r : Request) : Completes calm (build h (p.pass s) r) := by
  refine completes_get.bind fun st => (completes_checkCancelled hh _).bind fun _ => ?_
  cases (p.pass s).damage.stopping? (p.pass s).program st.exposure r with
  | some message =>
    exact (completes_tell hh _).bind fun _ => (completes_report hh _).bind fun _ => completes_pure _
  | none =>
    cases (p.pass s).program.wrappersFor? (p.pass s).settings st.exposure r with
    | some wrappers => exact completes_pure _
    | none => exact (completes_report hh _).bind fun _ => completes_pure _

theorem completes_answer (r : Request) : Completes calm (answer h (p.pass s) r) :=
  (completes_build hh r).bind fun ws => completes_deliverAll hh r.location ws

theorem completes_announce (requests : Requests) : Completes calm (announce h i requests) :=
  (Completes.forM (fun _ => completes_record _) _).bind fun _ =>
    (Completes.forM (fun _ => (completes_record _).bind fun _ => completes_tell hh _) _).bind
      fun _ =>
      completes_tell hh _

theorem completes_deliverTriggers : Completes calm (deliverTriggers h (p.pass s)) := by
  unfold deliverTriggers
  split
  · exact (completes_checkCancelled hh _).bind fun _ => (completes_deliverUnit hh _).bind fun _ =>
      completes_pure _
  · exact completes_pure ()

theorem completes_prepare (requests : Requests) :
    Completes calm (prepare h (p.pass s) requests) :=
  (completes_announce hh requests).bind fun _ => completes_deliverTriggers hh

theorem completes_deliverExtensions : Completes calm (deliverExtensions h (p.pass s)) := by
  refine completes_get.bind fun st => (completes_checkCancelled hh _).bind fun _ =>
    completes_get.bind fun st => ?_
  simp only
  cases (p.pass s).settings.renderExtensions st.factories with
  | some text => exact (completes_deliverUnit hh _).bind fun _ => completes_pure _
  | none => exact completes_pure ()

end PassStep

end EventWrap
