import EventWrap.Proofs.Json.Decoding
import EventWrap.Proofs.Pass.Tallies

/-!
# Metrics through JSON

A snapshot is written as a text, on one line or indented, and read back from it: its counters fit 64
bits and its tally is in order, so both survive. Of a duration all nanoseconds are written, but only
the lower 64 bits of what is read are kept, so that durations of 2⁶⁴ nanoseconds and more are not
read back. A duration has less than 2⁶⁴ seconds and thus always less than 2¹²⁸ nanoseconds, which is
what the reader takes in.
-/

namespace EventWrap

open Json Json.Decoder

/-! ## Tallies as lists -/

namespace Tally

variable {t done later : Tally} {name : String} {n : Nat}

/-- A name above all others is put at the end. -/
theorem insert_of_lt (h : ∀ entry ∈ t, entry.1 < name) : t.insert name n = t ++ [(name, n)] := by
  induction t with
  | nil => rfl
  | cons first rest ih =>
    obtain ⟨hfirst, hrest⟩ := List.forall_mem_cons.1 h
    have hne : name ≠ first.1 := fun heq => String.lt_irrefl _ (heq ▸ hfirst)
    have hnlt : ¬name < first.1 := fun hlt => String.lt_irrefl _ (String.lt_trans hlt hfirst)
    rw [insert, if_neg hne, if_neg hnlt, ih hrest]
    rfl

theorem foldl_insert (h : (done ++ later).Ascending) :
    later.foldl (fun t e => t.insert e.1 e.2) done = done ++ later := by
  induction later generalizing done with
  | nil => exact (List.append_nil done).symm
  | cons e rest ih =>
    have hlast : ∀ entry ∈ done, entry.1 < e.1 := fun entry hentry =>
      (List.pairwise_append.1 h).2.2 entry hentry e List.mem_cons_self
    have hsplit : (done ++ [e]) ++ rest = done ++ e :: rest := List.append_cons done e rest |>.symm
    rw [List.foldl_cons, insert_of_lt hlast]
    rw [← hsplit] at h ⊢
    exact ih h

/-- An ordered tally is made again from its entries. -/
theorem Ascending.ofList_eq (h : t.Ascending) : ofList t = t := foldl_insert h

end Tally

/-! ## Parts of a snapshot -/

/-- Less than 2⁶⁴ seconds. -/
def Duration.IsRepresentable (d : Duration) : Prop := d.nanoseconds < UInt64.size * 1000000000

instance (d : Duration) : Decidable d.IsRepresentable := inferInstanceAs (Decidable (_ < _))

/-- What is kept of a duration that is read: the lower 64 bits of its nanoseconds. -/
def Duration.kept (d : Duration) : Duration := ⟨d.nanoseconds % UInt64.size⟩

theorem Duration.kept_eq_iff {d : Duration} : d.kept = d ↔ d.nanoseconds < UInt64.size := by
  have hpositive : 0 < UInt64.size := by decide
  constructor
  · intro h
    rw [← h]
    exact Nat.mod_lt _ hpositive
  · intro h
    rw [kept, Nat.mod_eq_of_lt h]

theorem Duration.decoder_toJson {d : Duration} (h : d.IsRepresentable) (room : Nat) :
    Duration.decoder room d.toJson = some d.kept := by
  have hbound : UInt64.size * 1000000000 ≤ UInt64.size * UInt64.size := by decide
  rw [decoder, toJson, natural_nat (Nat.lt_of_lt_of_le h hbound)]
  rfl

/-- A number that a counter can hold. -/
abbrev IsCount (n : Nat) : Prop := n < UInt64.size

def RequestCounts.numbers (r : RequestCounts) : List Nat :=
  [r.ofInstances, r.ofStatics, r.duplicates]

def OutputCounts.numbers (o : OutputCounts) : List Nat :=
  [o.instanceWrappers, o.staticWrappers, o.eventsWrapped, o.factoryMethods, o.sourceUnits,
    o.totalBytes]

def DiagnosticCounts.numbers (d : DiagnosticCounts) : List Nat :=
  d.info :: d.warnings :: d.errors :: d.byId.map (·.2)

/-- What counting and timing can come to: counters of 64 bits, a tally with its names in order, and
durations that can be represented. -/
structure Metrics.IsSnapshot (m : Metrics) : Prop where
  requests : ∀ n ∈ m.requests.numbers, IsCount n
  output : ∀ n ∈ m.output.numbers, IsCount n
  diagnostics : ∀ n ∈ m.diagnostics.numbers, IsCount n
  ascending : m.diagnostics.byId.Ascending
  totalTime : m.timing.totalTime.IsRepresentable
  discoveryTime : m.timing.discoveryTime.IsRepresentable

/-! ## Reading the parts -/

section Parts

variable {room : Nat}

theorem required_eq_some {α : Type} {decode : Decoder α} {j : Json} {a : α}
    (h : decode room j = some a) : required decode room (some j) = some a := h

theorem required_counter {n : Nat} (h : IsCount n) :
    required counter room (some (nat n)) = some n := by
  apply required_eq_some
  rw [counter, natural_nat h]

theorem Timing.decoder_toJson {t : Timing} (htotal : t.totalTime.IsRepresentable)
    (hdiscovery : t.discoveryTime.IsRepresentable) :
    Timing.decoder (room + 1) t.toJson =
      some { totalTime := t.totalTime.kept, discoveryTime := t.discoveryTime.kept } := by
  rw [decoder, toJson]
  refine (record_record (by rfl) (by decide) _).trans ?_
  simp only [List.map_cons, List.map_nil, Option.bind_eq_bind, Option.bind_some,
    required_eq_some (Duration.decoder_toJson htotal room),
    required_eq_some (Duration.decoder_toJson hdiscovery room)]
  rfl

theorem RequestCounts.decoder_toJson {r : RequestCounts} (h : ∀ n ∈ r.numbers, IsCount n) :
    RequestCounts.decoder (room + 1) r.toJson = some r := by
  simp only [numbers, List.forall_mem_cons] at h
  obtain ⟨hinstances, hstatics, hduplicates, -⟩ := h
  rw [decoder, toJson]
  refine (record_record (by rfl) (by decide) _).trans ?_
  simp only [List.map_cons, List.map_nil, Option.bind_eq_bind,
    Option.bind_some, required_counter hinstances, required_counter hstatics,
    required_counter hduplicates]
  rfl

theorem OutputCounts.decoder_toJson {o : OutputCounts} (h : ∀ n ∈ o.numbers, IsCount n) :
    OutputCounts.decoder (room + 1) o.toJson = some o := by
  simp only [numbers, List.forall_mem_cons] at h
  obtain ⟨hinstance, hstatic, hevents, hfactories, hunits, hbytes, -⟩ := h
  rw [decoder, toJson]
  refine (record_record (by rfl) (by decide) _).trans ?_
  simp only [List.map_cons, List.map_nil, Option.bind_eq_bind,
    Option.bind_some, required_counter hinstance, required_counter hstatic,
    required_counter hevents, required_counter hfactories, required_counter hunits,
    required_counter hbytes]
  rfl

theorem Tally.table_record {t : Tally} (h : ∀ n ∈ t.map (·.2), IsCount n) :
    table counter (room + 1) (Json.record (t.map fun (id, n) => (id, nat n))) = some t := by
  rw [Json.record, table, List.map_map]
  apply mapM_map_eq_some
  intro entry hentry
  have hcount : IsCount entry.2 := h _ (List.mem_map_of_mem hentry)
  simp [counter, natural_nat hcount]

theorem DiagnosticCounts.decoder_toJson {d : DiagnosticCounts} (h : ∀ n ∈ d.numbers, IsCount n)
    (hbyId : d.byId.Ascending) : DiagnosticCounts.decoder (room + 2) d.toJson = some d := by
  simp only [numbers, List.forall_mem_cons] at h
  obtain ⟨hinfo, hwarnings, herrors, htally⟩ := h
  rw [decoder, toJson]
  refine (record_record (by rfl) (by decide) _).trans ?_
  simp only [List.map_cons, List.map_nil, Option.bind_eq_bind,
    Option.bind_some, required_counter hinfo, required_counter hwarnings, required_counter herrors]
  rw [required_eq_some (Tally.table_record htally), Option.bind_some, hbyId.ofList_eq]
  rfl

end Parts

/-! ## Snapshots -/

namespace Metrics

variable {m : Metrics}

/-- What is read back of a snapshot. -/
def reread (m : Metrics) : Metrics :=
  { m with timing := { totalTime := m.timing.totalTime.kept
                       discoveryTime := m.timing.discoveryTime.kept } }

theorem IsSnapshot.decoder_toJson (h : m.IsSnapshot) (room : Nat) :
    Metrics.decoder (room + 3) m.toJson = some m.reread := by
  rw [decoder, toJson]
  refine (record_record (by rfl) (by decide) _).trans ?_
  simp only [List.map_cons, List.map_nil, Option.bind_eq_bind, Option.bind_some,
    required_eq_some (Timing.decoder_toJson h.totalTime h.discoveryTime),
    required_eq_some (RequestCounts.decoder_toJson h.requests),
    required_eq_some (OutputCounts.decoder_toJson h.output),
    required_eq_some (DiagnosticCounts.decoder_toJson h.diagnostics h.ascending)]
  rfl

/-- All numbers of a snapshot are written in full, however large. -/
theorem integral_toJson (m : Metrics) : m.toJson.integral = true := by
  have hbyId : (Json.record (m.diagnostics.byId.map fun (id, n) => (id, nat n))).integral := by
    rw [integral_record, List.forall_mem_map]
    exact fun entry _ => integral_nat entry.2
  simp only [toJson, Timing.toJson, RequestCounts.toJson, OutputCounts.toJson,
    DiagnosticCounts.toJson, Duration.toJson, integral_record, integral_nat, hbyId,
    List.forall_mem_cons, List.not_mem_nil, false_implies, implies_true, and_self]

theorem IsSnapshot.parse?_compact (h : m.IsSnapshot) :
    parse? m.toJson.compact = some m.reread := by
  rw [parse?, parse?_compact_of_integral m.integral_toJson, Option.bind_some]
  exact h.decoder_toJson 124

theorem IsSnapshot.parse?_pretty (h : m.IsSnapshot) : parse? m.toJson.pretty = some m.reread := by
  rw [parse?, parse?_pretty_of_integral m.integral_toJson, Option.bind_some]
  exact h.decoder_toJson 124

/-- The texts of a snapshot give back its counters and its tally, and of each duration the lower 64
bits of its nanoseconds, so that it survives exactly if it has less than 2⁶⁴ of them. -/
theorem duration_survives_iff (h : m.IsSnapshot) :
    ∃ read, parse? m.toJson.compact = some read ∧ parse? m.toJson.pretty = some read ∧
      read.requests = m.requests ∧ read.output = m.output ∧ read.diagnostics = m.diagnostics ∧
      read.timing.totalTime = ⟨m.timing.totalTime.nanoseconds % 2 ^ 64⟩ ∧
      read.timing.discoveryTime = ⟨m.timing.discoveryTime.nanoseconds % 2 ^ 64⟩ ∧
      (read.timing.totalTime = m.timing.totalTime ↔ m.timing.totalTime.nanoseconds < 2 ^ 64) ∧
      (read.timing.discoveryTime = m.timing.discoveryTime ↔
        m.timing.discoveryTime.nanoseconds < 2 ^ 64) :=
  ⟨m.reread, h.parse?_compact, h.parse?_pretty, rfl, rfl, rfl, rfl, rfl,
    Duration.kept_eq_iff, Duration.kept_eq_iff⟩

/-- A pass that took 2⁶⁴ + 7 nanoseconds, all but eight of them for discovery. -/
def longPass : Metrics where
  timing := { totalTime := ⟨2 ^ 64 + 7⟩, discoveryTime := ⟨2 ^ 64 - 1⟩ }
  diagnostics := { warnings := 2, byId := [("RXGEN001", 1), ("RXGEN003", 1)] }

theorem longPass_isSnapshot : longPass.IsSnapshot where
  requests := by decide
  output := by decide
  diagnostics := by decide
  ascending := List.pairwise_pair.2 (by decide)
  totalTime := by decide
  discoveryTime := by decide

theorem longPass_discovery_survives :
    longPass.IsSnapshot ∧ ∃ read, parse? longPass.toJson.compact = some read ∧
      read.diagnostics = longPass.diagnostics ∧ read.timing.totalTime = ⟨7⟩ ∧
      read.timing.discoveryTime = longPass.timing.discoveryTime := by
  refine ⟨longPass_isSnapshot, ?_⟩
  obtain ⟨read, hread, -, -, -, hdiagnostics, htotal, -, -, hdiscovery⟩ :=
    duration_survives_iff longPass_isSnapshot
  exact ⟨read, hread, hdiagnostics, htotal, hdiscovery.2 (by decide)⟩

/-- Of 2⁶⁴ + 7 nanoseconds that are written, 7 are read. -/
theorem longPass_total_lost :
    longPass.IsSnapshot ∧ longPass.timing.totalTime ≠ ⟨7⟩ ∧
      ∃ read, parse? longPass.toJson.compact = some read ∧ read.timing.totalTime = ⟨7⟩ :=
  ⟨longPass_isSnapshot, by decide, _, IsSnapshot.parse?_compact longPass_isSnapshot, rfl⟩

end Metrics

end EventWrap
