import EventWrap.Host.Basic
import EventWrap.Pass.Listeners

/-!
# Layers over hosts

Hosts made from other hosts: with refusals of their own, with listeners, or cancelled at an event.
-/

namespace EventWrap.Host

variable {σ : Type}

/-- Refuses some hint names before the host below is asked. -/
def refusing (refusal : String → Option HostError) (below : Host σ) : Host σ :=
  { below with
    offer := fun hintName text state => match refusal hintName with
      | some e => (.error e, state)
      | none => below.offer hintName text state }

/-- Tells listeners of every event. -/
def listening (below : Host σ) : Host (σ × Listeners) where
  offer hintName text := fun (state, listeners) =>
    let (answer, state) := below.offer hintName text state
    (answer, (state, listeners))
  report d := fun (state, listeners) => (below.report d state, listeners)
  notify e := fun (state, listeners) => (below.notify e state, listeners.emit e)
  cancelled state := below.cancelled state.1

/-- Cancels the host below while the event of a type is told that has the given number, from one.
The second part of the state counts the events of this type. -/
def cancelling (cancel : σ → σ) (typeName : String) (number : Nat) (below : Host σ) : Host (σ × Nat) where
  offer hintName text := fun (state, count) =>
    let (answer, state) := below.offer hintName text state
    (answer, (state, count))
  report d := fun (state, count) => (below.report d state, count)
  notify e := fun (state, count) =>
    let state := below.notify e state
    if e.typeName = typeName then (if count + 1 = number then cancel state else state, count + 1)
    else (state, count)
  cancelled state := below.cancelled state.1

end EventWrap.Host
