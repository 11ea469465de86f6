import EventWrap.Proofs.Pass.Effects

/-!
# Conversations

A transcript is a conversation with a host when every answer in it is the one that the host gave
in the state that the exchanges before had left it in. A pass follows its host when its transcript
is such a conversation and the host is in the state that it leads to: whatever the host does, the
transcript then holds all that was asked of the host, in order.
-/

namespace EventWrap

variable {σ : Type} {h : Host σ} {start : σ}

namespace Host

/-- The state in which an exchange leaves a host. -/
def leave (h : Host σ) (x : σ) : Exchange → σ
  | .offered u _ => (h.offer u.hintName u.text x).2
  | .reported d => h.report d x
  | .told e => h.notify e x

/-- The state in which a transcript leaves a host. -/
def after (h : Host σ) (start : σ) (t : Transcript) : σ := t.foldl h.leave start

@[simp] theorem after_append (t t' : Transcript) :
    h.after start (t ++ t') = h.after (h.after start t) t' :=
  List.foldl_append

end Host

namespace Transcript

/-- Every answer is the one that the host gave after the exchanges before it. -/
def IsConversation (h : Host σ) (start : σ) (t : Transcript) : Prop :=
  ∀ before u answer after, t = before ++ .offered u answer :: after →
    answer = (h.offer u.hintName u.text (h.after start before)).1

theorem IsConversation.nil : IsConversation h start [] := by
  intro before u answer after hsplit
  simp at hsplit

theorem IsConversation.snoc {t : Transcript} (ht : t.IsConversation h start) {x : Exchange}
    (hx : ∀ u answer, x = .offered u answer →
      answer = (h.offer u.hintName u.text (h.after start t)).1) :
    IsConversation h start (t ++ [x]) := by
  intro before u answer after hsplit
  rcases List.eq_nil_or_concat after with rfl | ⟨after, y, rfl⟩
  · obtain ⟨rfl, hlast⟩ := List.append_inj' hsplit rfl
    exact hx u answer (List.singleton_inj.1 hlast)
  · rw [List.concat_eq_append, ← List.cons_append, ← List.append_assoc] at hsplit
    exact ht before u answer after (List.append_inj' hsplit rfl).1

/-- The units that were offered, by hint name and text. -/
def offers (t : Transcript) : List (String × String) :=
  t.filterMap fun
    | .offered u _ => some (u.hintName, u.text)
    | _ => none

/-- The events that were told. -/
def events (t : Transcript) : List PassEvent :=
  t.filterMap fun
    | .told e => some e
    | _ => none

@[simp] theorem events_append (t t' : Transcript) : events (t ++ t') = events t ++ events t' := by
  simp [events]

@[simp] theorem events_told (e : PassEvent) : events [.told e] = [e] := rfl

@[simp] theorem events_offered (u : Delivery) (answer : Except HostError Unit) :
    events [.offered u answer] = [] := rfl

end Transcript

namespace PassState

/-- The transcript is a conversation with the host, and the host is where it leads. -/
structure Follows (h : Host σ) (start : σ) (st : PassState σ) : Prop where
  host : st.host = h.after start st.transcript
  answers : st.transcript.IsConversation h start

namespace Follows

variable {st : PassState σ}

theorem initial : Follows h start { host := start } where
  host := rfl
  answers := .nil

/-- What is neither offered, reported nor told does not count. -/
theorem of_eq {st' : PassState σ} (hst : st.Follows h start) (hhost : st'.host = st.host)
    (htranscript : st'.transcript = st.transcript) : st'.Follows h start where
  host := by rw [hhost, htranscript, hst.host]
  answers := htranscript ▸ hst.answers

theorem told (hst : st.Follows h start) (e : PassEvent) : (st.told h e).Follows h start where
  host := by simp [PassState.told, Host.after, Host.leave, hst.host]
  answers := hst.answers.snoc fun _ _ heq => by cases heq

theorem recorded (hst : st.Follows h start) (change : Metrics → Metrics) :
    (st.recorded change).Follows h start :=
  hst.of_eq rfl rfl

theorem reported (hst : st.Follows h start) (d : Diagnostic) : (st.reported h d).Follows h start :=
  have htold := (hst.recorded (·.recordDiagnostic d.id d.severity)).told (.diagnosticReported d)
  { host := by
      simp only [PassState.reported, Host.after_append, ← htold.host]
      rfl
    answers := htold.answers.snoc fun _ _ heq => by cases heq }

theorem offered (hst : st.Follows h start) (u : Delivery) : (st.offered h u).Follows h start where
  host := by simp [PassState.offered, Host.after, Host.leave, hst.host]
  answers := by
    refine hst.answers.snoc fun v answer heq => ?_
    cases heq
    rw [← hst.host]
    rfl

theorem stored (hst : st.Follows h start) (u : Delivery) : (st.stored h u).Follows h start :=
  (((hst.offered u).recorded _).told _).of_eq rfl rfl

theorem entered (hst : st.Follows h start) (i : PassInput) (w : Wrapper) :
    (st.entered h i w).Follows h start :=
  (hst.told _).of_eq (entered_host i w st) (entered_transcript i w st)

theorem counted (hst : st.Follows h start) : st.counted.Follows h start := hst.of_eq rfl rfl

end Follows

end PassState

end EventWrap
