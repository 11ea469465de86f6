import EventWrap.Pass.Listeners
import Mathlib.Data.List.Basic

/-!
# What a collector receives

Listeners are registered, dropped and told of events in any order. A collector takes its share of
this: its own registrations, the removals of all and the events. It is told of an event once for
each of its registrations in force, and of what it is told it keeps the first events that pass its
filter, up to its capacity. The other collectors do not show in its share.
-/

namespace EventWrap

/-! ## Events in turn -/

namespace Collector

/-- Keeps several events, one after the other, as far as they pass and there is room. -/
def receiveAll (events : List PassEvent) (c : Collector) : Collector :=
  events.foldl (fun c e => c.receive e) c

theorem receiveAll_append (events later : List PassEvent) (c : Collector) :
    c.receiveAll (events ++ later) = (c.receiveAll events).receiveAll later :=
  List.foldl_append

theorem lets_eq (c : Collector) :
    c.lets = fun e => c.filter.all fun names => names.contains e.typeName := by
  funext e
  rw [lets]
  cases c.filter <;> rfl

/-- What is received fills the room that there is, in order. -/
theorem receiveAll_eq (events : List PassEvent) (c : Collector) :
    c.receiveAll events =
      { c with
        events := c.events ++ (events.filter c.lets).take (c.capacity - c.events.length) } := by
  induction events generalizing c with
  | nil => simp [receiveAll]
  | cons e rest ih =>
    have hstep : c.receiveAll (e :: rest) = (c.receive e).receiveAll rest := rfl
    rw [hstep, ih, receive]
    by_cases hlets : c.lets e = true
    · rw [List.filter_cons_of_pos hlets, hlets, Bool.true_and]
      by_cases hroom : c.events.length < c.capacity
      · have hleft : c.capacity - c.events.length = (c.capacity - (c.events.length + 1)) + 1 := by
          omega
        rw [decide_eq_true hroom, if_pos rfl, hleft, List.take_succ_cons]
        simp only [List.length_append, List.length_singleton, List.append_assoc,
          List.singleton_append]
        rfl
      · have hfull : c.capacity - c.events.length = 0 := by omega
        rw [decide_eq_false hroom, if_neg Bool.false_ne_true, hfull, List.take_zero, List.take_zero]
    · rw [List.filter_cons_of_neg hlets, Bool.eq_false_iff.2 hlets, Bool.false_and,
        if_neg Bool.false_ne_true]

end Collector

namespace Listeners

variable {l : Listeners} {place : Nat} {c : Collector}

/-! ## Actions -/

/-- What is done to listeners while events are told. -/
inductive Action where
  /-- A new collector is registered. -/
  | subscribe (c : Collector)
  /-- The collector at a place is registered once more. -/
  | register (place : Nat)
  | unsubscribeAll
  | emit (e : PassEvent)

def Action.run : Action → Listeners → Listeners
  | .subscribe c => Listeners.subscribe c
  | .register place => Listeners.register place
  | .unsubscribeAll => Listeners.unsubscribeAll
  | .emit e => Listeners.emit e

def runAll (actions : List Action) (l : Listeners) : Listeners :=
  actions.foldl (fun l a => a.run l) l

/-- What an action is to one collector. -/
inductive Share where
  | registered
  | dropped
  | emitted (e : PassEvent)

/-- The share of the collector at a place in some actions. -/
def shares (place : Nat) : List Action → List Share
  | [] => []
  | .subscribe _ :: rest => shares place rest
  | .register q :: rest =>
    if q = place then .registered :: shares place rest else shares place rest
  | .unsubscribeAll :: rest => .dropped :: shares place rest
  | .emit e :: rest => .emitted e :: shares place rest

/-- The events that a collector is told of which has a number of registrations: each as often as it
is registered by then. -/
def told : Nat → List Share → List PassEvent
  | _, [] => []
  | count, .registered :: rest => told (count + 1) rest
  | _, .dropped :: rest => told 0 rest
  | count, .emitted e :: rest => List.replicate count e ++ told count rest

/-! ## One action -/

theorem getElem?_foldl_receive (e : PassEvent) (registered : List Nat) (all : List Collector)
    (place : Nat) :
    (registered.foldl (fun all q => all.modify q (·.receive e)) all)[place]? =
      all[place]?.map (·.receiveAll (List.replicate (registered.count place) e)) := by
  induction registered generalizing all with
  | nil => exact Option.map_id'.symm
  | cons q rest ih =>
    rw [List.foldl_cons, ih, List.getElem?_modify]
    by_cases hq : q = place
    · subst hq
      rw [List.count_cons_self, List.replicate_succ]
      simp only [if_true, Option.map_eq_map, Option.map_map]
      rfl
    · rw [List.count_cons_of_ne hq]
      simp only [if_neg hq, Option.map_eq_map, Option.map_map]
      rfl

/-- The collector at a place receives an event once for each of its registrations. -/
theorem collector?_emit (e : PassEvent) (l : Listeners) (place : Nat) :
    (l.emit e).collector? place =
      (l.collector? place).map (·.receiveAll (List.replicate (l.registered.count place) e)) :=
  getElem?_foldl_receive e l.registered l.collectors place

/-- A new collector leaves those that there are as they are, and their registrations. -/
theorem subscribe_eq (h : l.collector? place = some c) (c' : Collector) :
    (l.subscribe c').collector? place = some c ∧
      (l.subscribe c').registered.count place = l.registered.count place := by
  obtain ⟨hlt, -⟩ := List.getElem?_eq_some_iff.1 h
  constructor
  · rw [← h]
    exact List.getElem?_append_left hlt
  · have hne : ¬(l.collectors.length == place) = true := by simpa using Nat.ne_of_gt hlt
    rw [subscribe, List.count_append, List.count_singleton, if_neg hne, Nat.add_zero]

/-! ## Any actions -/

/-- After any actions a collector has received what its share tells it of. -/
theorem collector?_runAll (h : l.collector? place = some c) (actions : List Action) :
    (l.runAll actions).collector? place = some (c.receiveAll
      (told (l.registered.count place) (shares place actions))) := by
  induction actions generalizing l c with
  | nil => exact h
  | cons a rest ih =>
    have hstep : l.runAll (a :: rest) = (a.run l).runAll rest := rfl
    rw [hstep]
    cases a with
    | subscribe c' =>
      obtain ⟨hplace, hcount⟩ := subscribe_eq h c'
      rw [shares, ← hcount]
      exact ih hplace
    | register q =>
      have hplace : (l.register q).collector? place = some c := h
      rw [Action.run, ih hplace, register, List.count_append, List.count_singleton, shares]
      by_cases hq : q = place
      · rw [if_pos hq, if_pos (beq_iff_eq.2 hq), told]
      · rw [if_neg hq, if_neg (mt beq_iff_eq.1 hq), Nat.add_zero]
    | unsubscribeAll =>
      have hplace : l.unsubscribeAll.collector? place = some c := h
      rw [shares, told]
      exact ih hplace
    | emit e =>
      have hplace : (l.emit e).collector? place =
          some (c.receiveAll (List.replicate (l.registered.count place) e)) := by
        rw [collector?_emit, h, Option.map_some]
      rw [shares, told, Collector.receiveAll_append]
      exact ih hplace

/-- A new collector ends with the first events, up to its capacity, that it was told of and that
pass its filter, told once for each registration in force; and it ends so among any other
listeners, and with anything done to these, where its own share is the same. -/
theorem collector_keeps_share (h : l.collector? place = some c) (hnew : c.events = [])
    (actions : List Action) :
    ∃ c', (l.runAll actions).collector? place = some c' ∧
      c'.events =
        ((told (l.registered.count place) (shares place actions)).filter
          fun e => c.filter.all fun names => names.contains e.typeName).take c.capacity ∧
      ∀ (l' : Listeners) (place' : Nat) (actions' : List Action),
        l'.collector? place' = some c →
        l'.registered.count place' = l.registered.count place →
        shares place' actions' = shares place actions →
        (l'.runAll actions').collector? place' = some c' := by
  refine ⟨_, collector?_runAll h actions, ?_, ?_⟩
  · rw [Collector.receiveAll_eq, Collector.lets_eq, hnew, List.nil_append, List.length_nil,
      Nat.sub_zero]
  · intro l' place' actions' h' hcount hshare
    rw [collector?_runAll h' actions', hcount, hshare]

/-- A collector that is registered twice for a while and dropped for a while, among others. -/
theorem cancellations_kept :
    let c : Collector := { capacity := 3, filter := some ["pass_cancelled"] }
    let actions : List Action := [.register 1, .emit (.cancelled 0), .register 0,
      .emit (.cancelled 1), .emit (.started 1 0), .register 0, .subscribe {}, .emit (.cancelled 2),
      .unsubscribeAll, .emit (.cancelled 3), .register 0, .register 2, .emit (.cancelled 4)]
    let alone : List Action := [.emit (.cancelled 0), .register 0, .emit (.cancelled 1),
      .emit (.started 1 0), .register 0, .emit (.cancelled 2), .unsubscribeAll,
      .emit (.cancelled 3), .register 0, .emit (.cancelled 4)]
    ∃ c', (runAll actions ⟨[c, {}], []⟩).collector? 0 = some c' ∧
      c'.events = [.cancelled 1, .cancelled 2, .cancelled 2] ∧
      (runAll alone ⟨[c], []⟩).collector? 0 = some c' := by
  intro c actions alone
  have hplace : (⟨[c, {}], []⟩ : Listeners).collector? 0 = some c := rfl
  obtain ⟨c', hc', hevents, halone⟩ := collector_keeps_share hplace rfl actions
  exact ⟨c', hc', hevents.trans (by decide), halone ⟨[c], []⟩ 0 alone rfl rfl rfl⟩

end Listeners

end EventWrap
