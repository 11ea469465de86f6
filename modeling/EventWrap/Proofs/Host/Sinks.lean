import EventWrap.Host.Directory
import EventWrap.Host.Memory
import EventWrap.Proofs.Files.Tree
import EventWrap.Proofs.Host.HintName
import EventWrap.Proofs.Occurrence
import EventWrap.Proofs.Pass.Lockstep
import EventWrap.Proofs.Pass.Requests
import EventWrap.Proofs.Pass.Simulation

/-!
# Hosts as sinks of units

A host in memory and a host on disk take the same units. As long as no file request fails, both give
the same answers and hold the same hint names; the files then are those that were collected, each
written once, under its name in the directory of the host. Whatever is offered, no file is written
anywhere else. So a pass comes to the same end over both.
-/

namespace EventWrap

variable {σ : Type}

/-! ## Hint names -/

namespace HintName

variable {name : String}

/-- An accepted hint name is the name of an entry of a directory. -/
theorem isEntryName (h : validate name = .ok ()) : Path.IsEntryName name := by
  obtain ⟨hblank, hseparators, hpoint, -, -⟩ := validate_eq_ok_iff.1 h
  refine ⟨fun hslash => ?_, ?_, ?_⟩
  · have hseparator := List.any_eq_false.1 hseparators '/' hslash
    exact hseparator rfl
  · rw [Path.staysPut, Bool.or_eq_false_iff, decide_eq_false_iff_not, decide_eq_false_iff_not]
    constructor
    · rintro rfl
      cases hblank
    · rintro rfl
      exact hpoint rfl
  · rintro rfl
    exact hpoint rfl

end HintName

/-! ## File systems that keep a record -/

namespace FileSystem

/-- Files that were to be written, with their texts. -/
abbrev Writes := List (String × String)

/-- A file system that records every file that it is to write. -/
def recording (fs : FileSystem σ) : FileSystem (σ × Writes) where
  read path state := fs.read path state.1
  ensureDirectory path state :=
    ((fs.ensureDirectory path state.1).1, (fs.ensureDirectory path state.1).2, state.2)
  write path text state :=
    ((fs.write path text state.1).1, (fs.write path text state.1).2, state.2 ++ [(path, text)])

variable (fs : FileSystem σ)

theorem recording_ensureFirst (state : σ × Writes) (paths : List String) :
    fs.recording.ensureFirst state paths =
      ((fs.ensureFirst state.1 paths).1, (fs.ensureFirst state.1 paths).2, state.2) := by
  induction paths generalizing state with
  | nil => rfl
  | cons path above ih =>
    have hensure : ∀ state, fs.recording.ensureDirectory path state =
      ((fs.ensureDirectory path state.1).1, (fs.ensureDirectory path state.1).2, state.2) :=
      fun _ => rfl
    rw [ensureFirst, ensureFirst, hensure]
    rcases fs.ensureDirectory path state.1 with ⟨fault | ⟨⟩, first⟩
    · cases fault with
      | notFound =>
        simp only [ih]
        rcases fs.ensureFirst first above with ⟨fault | ⟨⟩, made⟩ <;> rfl
      | _ => rfl
    · rfl

/-- Making directories writes no files. -/
theorem recording_makeDirectories (path : String) (state : σ × Writes) :
    fs.recording.makeDirectories path state =
      ((fs.makeDirectories path state.1).1, (fs.makeDirectories path state.1).2, state.2) := by
  rw [makeDirectories, makeDirectories]
  split
  · rfl
  · exact recording_ensureFirst fs state _

theorem makeDirectories_of_recording {path : String} {state after : σ × Writes}
    {answer : Except FileFault Unit}
    (h : fs.recording.makeDirectories path state = (answer, after)) :
    fs.makeDirectories path state.1 = (answer, after.1) ∧ after.2 = state.2 := by
  rw [recording_makeDirectories] at h
  cases h
  exact ⟨rfl, rfl⟩

theorem write_of_recording {path text : String} {state after : σ × Writes}
    {answer : Except FileFault Unit} (h : fs.recording.write path text state = (answer, after)) :
    fs.write path text state.1 = (answer, after.1) ∧ after.2 = state.2 ++ [(path, text)] := by
  cases h
  exact ⟨rfl, rfl⟩

end FileSystem

open FileSystem

/-! ## Single units -/

namespace DirectoryHost

/-- The host without the record of its file system. -/
def unrecorded (h : DirectoryHost (σ × Writes)) : DirectoryHost σ :=
  ⟨h.root, h.disk.1, h.hintNames, h.diagnostics, h.isCancelled⟩

theorem store_unrecorded (fs : FileSystem σ) (hintName text : String)
    (h : DirectoryHost (σ × Writes)) : store fs hintName text h.unrecorded =
      ((store fs.recording hintName text h).1,
        (store fs.recording hintName text h).2.unrecorded) := by
  rw [store, store, recording_makeDirectories]
  simp only [unrecorded]
  rcases fs.makeDirectories h.root h.disk.1 with ⟨fault | ⟨⟩, made⟩
  · rfl
  · have hwrite : fs.recording.write (Path.join h.root hintName) text (made, h.disk.2) =
        ((fs.write (Path.join h.root hintName) text made).1,
          (fs.write (Path.join h.root hintName) text made).2,
          h.disk.2 ++ [(Path.join h.root hintName, text)]) := rfl
    simp only [hwrite]
    rcases fs.write (Path.join h.root hintName) text made with ⟨fault | ⟨⟩, after⟩ <;> rfl

/-- A file system that keeps a record does what it does without one. -/
theorem offer_unrecorded (fs : FileSystem σ) (hintName text : String)
    (h : DirectoryHost (σ × Writes)) : offer fs hintName text h.unrecorded =
      ((offer fs.recording hintName text h).1,
        (offer fs.recording hintName text h).2.unrecorded) := by
  have hcancelled : h.unrecorded.isCancelled = h.isCancelled := rfl
  have hnames : h.unrecorded.hintNames = h.hintNames := rfl
  rw [offer, offer, hcancelled, hnames]
  by_cases hstop : h.isCancelled
  · rw [if_pos hstop, if_pos hstop]
  · rw [if_neg hstop, if_neg hstop]
    cases HintName.validate hintName with
    | error e => rfl
    | ok =>
      simp only
      by_cases hknown : hintName ∈ h.hintNames
      · rw [if_pos hknown, if_pos hknown]
      · rw [if_neg hknown, if_neg hknown, store_unrecorded]

/-- What becomes of a unit that is offered to a host which is not cancelled. -/
inductive Outcome (fs : FileSystem σ) (hintName text : String) (h : DirectoryHost σ) :
    Except HostError Unit × DirectoryHost σ → Prop
  | invalid {e : HostError} (fault : HintName.validate hintName = .error e) :
      Outcome fs hintName text h (.error e, h)
  | repeated (valid : HintName.validate hintName = .ok ()) (known : hintName ∈ h.hintNames) :
      Outcome fs hintName text h (.error (.alreadyAdded hintName), h)
  | unmade {fault : FileFault} {disk : σ} (valid : HintName.validate hintName = .ok ())
      (made : fs.makeDirectories h.root h.disk = (.error fault, disk)) :
      Outcome fs hintName text h (.error (.io fault.message), { h with disk })
  | unwritten {fault : FileFault} {ready disk : σ} (valid : HintName.validate hintName = .ok ())
      (made : fs.makeDirectories h.root h.disk = (.ok (), ready))
      (written : fs.write (Path.join h.root hintName) text ready = (.error fault, disk)) :
      Outcome fs hintName text h (.error (.io fault.message), { h with disk })
  | stored {ready disk : σ} (valid : HintName.validate hintName = .ok ())
      (fresh : hintName ∉ h.hintNames)
      (made : fs.makeDirectories h.root h.disk = (.ok (), ready))
      (written : fs.write (Path.join h.root hintName) text ready = (.ok (), disk)) :
      Outcome fs hintName text h (.ok (), { h with disk, hintNames := h.hintNames ++ [hintName] })

theorem outcome_offer (fs : FileSystem σ) (hintName text : String) {h : DirectoryHost σ}
    (hrunning : h.isCancelled = false) : Outcome fs hintName text h (offer fs hintName text h) := by
  rw [offer, if_neg (by simp [hrunning])]
  split
  · next hfault => exact .invalid hfault
  · next hvalid =>
    split
    · next hknown => exact .repeated hvalid hknown
    · next hfresh =>
      rw [store]
      rcases hmade : fs.makeDirectories h.root h.disk with ⟨fault | ⟨⟩, ready⟩
      · exact .unmade hvalid hmade
      · simp only
        rcases hwritten : fs.write (Path.join h.root hintName) text ready with ⟨fault | ⟨⟩, disk⟩
        · exact .unwritten hvalid hmade hwritten
        · exact .stored hvalid hfresh hmade hwritten

variable {fs : FileSystem σ} {hintName text : String} {e : HostError}

/-- A unit that is refused for another reason than a failed request leaves the host as it was. -/
theorem offer_of_refused {h : DirectoryHost σ} (hanswer : (offer fs hintName text h).1 = .error e)
    (hio : ∀ cause, e ≠ .io cause) : (offer fs hintName text h).2 = h := by
  by_cases hstop : h.isCancelled
  · rw [offer, if_pos hstop]
  · have houtcome := outcome_offer fs hintName text (Bool.eq_false_iff.2 hstop)
    generalize offer fs hintName text h = result at hanswer houtcome
    cases houtcome with
    | invalid | repeated => rfl
    | unmade | unwritten =>
      cases hanswer
      exact absurd rfl (hio _)
    | stored => cases hanswer

end DirectoryHost

/-- A unit that is refused leaves a host in memory as it was. -/
theorem MemoryHost.offer_of_refused {h : MemoryHost} {hintName text : String} {e : HostError}
    (hanswer : (offer hintName text h).1 = .error e) : (offer hintName text h).2 = h := by
  unfold offer at hanswer ⊢
  split
  · rfl
  · next hvalid =>
    rw [hvalid] at hanswer
    simp only at hanswer ⊢
    split
    · rfl
    · next hfresh =>
      rw [if_neg hfresh] at hanswer
      cases hanswer

/-! ## Hosts that hold the same -/

namespace DirectoryHost

/-- Hosts on disk and in memory that took the same units and were not cancelled. -/
structure Alike (d : DirectoryHost σ) (m : MemoryHost) : Prop where
  hintNames : d.hintNames = m.hintNames
  running : d.isCancelled = false
  running' : m.isCancelled = false

variable {fs : FileSystem σ} {hintName text : String}

/-- Where no request fails, a unit is answered alike, and taken by both or by none. -/
theorem Alike.offered {d : DirectoryHost σ} {m : MemoryHost} (h : d.Alike m)
    (hio : ∀ cause, (offer fs hintName text d).1 ≠ .error (.io cause)) :
    (MemoryHost.offer hintName text m).1 = (offer fs hintName text d).1 ∧
      (offer fs hintName text d).2.Alike (MemoryHost.offer hintName text m).2 := by
  have houtcome := outcome_offer fs hintName text h.running
  generalize offer fs hintName text d = result at hio houtcome
  unfold MemoryHost.offer
  cases houtcome with
  | invalid hfault =>
    rw [hfault]
    exact ⟨rfl, h⟩
  | repeated hvalid hknown =>
    rw [h.hintNames] at hknown
    rw [hvalid]
    simp only [if_pos hknown]
    exact ⟨trivial, h⟩
  | unmade | unwritten => exact absurd rfl (hio _)
  | stored hvalid hfresh =>
    rw [h.hintNames] at hfresh
    rw [hvalid]
    simp only [if_neg hfresh]
    refine ⟨trivial, ?_, h.running, h.running'⟩
    simp [MemoryHost.hintNames, h.hintNames]

/-- A host on disk, over a file system that keeps a record, holds in its directory what a host in
memory has collected. -/
structure Mirrors (fs : FileSystem σ) (directory : String) (d : DirectoryHost (σ × Writes))
    (m : MemoryHost) : Prop extends d.Alike m where
  root : d.root = directory
  distinct : m.hintNames.Nodup
  valid : ∀ name ∈ m.hintNames, HintName.validate name = .ok ()
  writes : d.disk.2 = m.sources.map fun s => (Path.join directory s.1, s.2)
  contents : fs.KeepsApart directory → ∀ s ∈ m.sources,
    fs.read (Path.join directory s.1) d.disk.1 = .ok s.2

theorem Mirrors.start (fs : FileSystem σ) (directory : String) (disk : σ) :
    Mirrors fs directory { root := directory, disk := (disk, []) } {} where
  hintNames := rfl
  running := rfl
  running' := rfl
  root := rfl
  distinct := List.nodup_nil
  valid := List.forall_mem_nil _
  writes := rfl
  contents _ := List.forall_mem_nil _

/-- A stored unit is one more file, and the files that were there stay. -/
theorem Mirrors.offered {directory : String} {d : DirectoryHost (σ × Writes)} {m : MemoryHost}
    (h : Mirrors fs directory d m)
    (hio : ∀ cause, (offer fs.recording hintName text d).1 ≠ .error (.io cause)) :
    Mirrors fs directory (offer fs.recording hintName text d).2
      (MemoryHost.offer hintName text m).2 := by
  obtain ⟨hanswer, halike⟩ := h.toAlike.offered hio
  have houtcome := outcome_offer fs.recording hintName text h.running
  generalize offer fs.recording hintName text d = result at hio houtcome hanswer halike
  cases houtcome with
  | invalid | repeated =>
    rw [MemoryHost.offer_of_refused hanswer]
    exact h
  | unmade | unwritten => exact absurd rfl (hio _)
  | @stored ready disk hvalid hfresh hmade hwritten =>
    rw [h.hintNames] at hfresh
    have hmemory : (MemoryHost.offer hintName text m).2 =
        { m with sources := m.sources ++ [(hintName, text)] } := by
      rw [MemoryHost.offer, hvalid]
      simp only [if_neg hfresh]
    have hnames : (MemoryHost.offer hintName text m).2.hintNames = m.hintNames ++ [hintName] := by
      rw [hmemory, MemoryHost.hintNames, List.map_append]
      rfl
    obtain ⟨hmade, hready⟩ := makeDirectories_of_recording fs hmade
    obtain ⟨hwritten, hdisk⟩ := write_of_recording fs hwritten
    rw [h.root] at hmade hwritten hdisk
    refine ⟨halike, h.root, ?_, ?_, ?_, ?_⟩
    · rw [hnames]
      exact h.distinct.append (List.nodup_singleton _) (by simpa using hfresh)
    · rw [hnames]
      exact List.forall_mem_append.2 ⟨h.valid, List.forall_mem_singleton.2 hvalid⟩
    · rw [hmemory, List.map_append, ← h.writes, ← hready]
      exact hdisk
    · intro hfs
      have hentry := HintName.isEntryName hvalid
      rw [hmemory, List.forall_mem_append, List.forall_mem_singleton]
      refine ⟨fun s hs => ?_, hfs.written hentry hwritten⟩
      have hname : s.1 ∈ m.hintNames := List.mem_map_of_mem hs
      have hother := HintName.isEntryName (h.valid s.1 hname)
      have hkept : fs.read (Path.join directory s.1) (fs.makeDirectories directory d.disk.1).2 =
          .ok s.2 := hfs.read_makeDirectories hother (h.contents hfs s hs)
      rw [hmade] at hkept
      exact hfs.others hentry hother (fun heq => hfresh (heq ▸ hname)) hwritten hkept

/-- Whatever becomes of a unit, at most an entry of the directory is written. -/
theorem isChild_of_offered (fs : FileSystem σ) (hintName text : String) {directory : String}
    {d : DirectoryHost (σ × Writes)} (hroot : d.root = directory)
    (hd : ∀ w ∈ d.disk.2, Path.IsChild directory w.1) :
    (offer fs.recording hintName text d).2.root = directory ∧
      ∀ w ∈ (offer fs.recording hintName text d).2.disk.2, Path.IsChild directory w.1 := by
  by_cases hstop : d.isCancelled
  · rw [offer, if_pos hstop]
    exact ⟨hroot, hd⟩
  · have houtcome := outcome_offer fs.recording hintName text (Bool.eq_false_iff.2 hstop)
    generalize offer fs.recording hintName text d = result at houtcome
    -- A file is written only after its name was accepted, whether or not this comes to an end.
    have hafter : ∀ {ready disk : σ × Writes} {answer : Except FileFault Unit},
        HintName.validate hintName = .ok () →
        fs.recording.makeDirectories d.root d.disk = (.ok (), ready) →
        fs.recording.write (Path.join d.root hintName) text ready = (answer, disk) →
        ∀ w ∈ disk.2, Path.IsChild directory w.1 := by
      intro ready disk answer hvalid hmade hwritten
      obtain ⟨-, hready⟩ := makeDirectories_of_recording fs hmade
      obtain ⟨-, hdisk⟩ := write_of_recording fs hwritten
      rw [hdisk, hready, hroot]
      exact List.forall_mem_append.2
        ⟨hd, List.forall_mem_singleton.2 ((HintName.isEntryName hvalid).isChild_join directory)⟩
    cases houtcome with
    | invalid | repeated => exact ⟨hroot, hd⟩
    | unmade _ hmade =>
      obtain ⟨-, hdisk⟩ := makeDirectories_of_recording fs hmade
      exact ⟨hroot, hdisk ▸ hd⟩
    | unwritten hvalid hmade hwritten => exact ⟨hroot, hafter hvalid hmade hwritten⟩
    | stored hvalid _ hmade hwritten => exact ⟨hroot, hafter hvalid hmade hwritten⟩

end DirectoryHost

/-! ## Units one after the other -/

/-- Units, by hint name and text, are offered to a host one after the other. -/
def Host.offerAll (h : Host σ) :
    List (String × String) → σ → List (Except HostError Unit) × σ
  | [], x => ([], x)
  | u :: rest, x =>
    let (answer, x) := h.offer u.1 u.2 x
    let (answers, x) := offerAll h rest x
    (answer :: answers, x)

namespace DirectoryHost

variable {fs : FileSystem σ}

theorem offerAll_unrecorded (fs : FileSystem σ) (units : List (String × String))
    (h : DirectoryHost (σ × Writes)) : (host fs).offerAll units h.unrecorded =
      (((host fs.recording).offerAll units h).1,
        ((host fs.recording).offerAll units h).2.unrecorded) := by
  induction units generalizing h with
  | nil => rfl
  | cons u rest ih =>
    have hoffer : (host fs).offer u.1 u.2 h.unrecorded = _ := offer_unrecorded fs u.1 u.2 h
    rw [Host.offerAll, hoffer]
    simp only [ih]
    rfl

theorem isChild_of_offeredAll {directory : String} (units : List (String × String))
    {d : DirectoryHost (σ × Writes)} (hroot : d.root = directory)
    (hd : ∀ w ∈ d.disk.2, Path.IsChild directory w.1) :
    ∀ w ∈ ((host fs.recording).offerAll units d).2.disk.2, Path.IsChild directory w.1 := by
  induction units generalizing d with
  | nil => exact hd
  | cons u rest ih =>
    obtain ⟨hroot', hd'⟩ := isChild_of_offered fs u.1 u.2 hroot hd
    exact ih hroot' hd'

/-- As long as no request fails, the hosts give the same answers and hold the same. -/
theorem Mirrors.offeredAll {directory : String} {units : List (String × String)}
    {d : DirectoryHost (σ × Writes)} {m : MemoryHost} (h : Mirrors fs directory d m)
    (hio : ∀ cause, .error (.io cause) ∉ ((host fs.recording).offerAll units d).1) :
    (MemoryHost.host.offerAll units m).1 = ((host fs.recording).offerAll units d).1 ∧
      Mirrors fs directory ((host fs.recording).offerAll units d).2
        (MemoryHost.host.offerAll units m).2 := by
  induction units generalizing d m with
  | nil => exact ⟨rfl, h⟩
  | cons u rest ih =>
    have hfirst : ∀ cause, (offer fs.recording u.1 u.2 d).1 ≠ .error (.io cause) :=
      fun cause heq => hio cause (List.mem_cons.2 (.inl heq.symm))
    have hrest := ih (h.offered hfirst) fun cause hmem => hio cause (List.mem_cons_of_mem _ hmem)
    obtain ⟨hanswers, hmirrors⟩ := hrest
    refine ⟨?_, hmirrors⟩
    exact congrArg₂ List.cons (h.toAlike.offered hfirst).1 hanswers

end DirectoryHost

/-! ## Passes -/

namespace DirectoryHost

open PassState PassStep

variable {fs : FileSystem σ} {i : PassInput}

/-- A pass was told that a file request failed. -/
def Failed (t : Transcript) : Prop := ∃ u cause, Exchange.offered u (.error (.io cause)) ∈ t

/-- Why the file request of an exchange failed. -/
def failure? : Exchange → Option String
  | .offered _ (.error (.io cause)) => some cause
  | _ => none

theorem exists_failure_iff {t : Transcript} :
    (∃ x ∈ t, (failure? x).isSome) ↔ Failed t := by
  constructor
  · rintro ⟨x, hx, hfailed⟩
    unfold failure? at hfailed
    split at hfailed
    · exact ⟨_, _, hx⟩
    · cases hfailed
  · rintro ⟨u, cause, hmem⟩
    exact ⟨_, hmem, rfl⟩

instance (t : Transcript) : Decidable (Failed t) := decidable_of_iff _ exists_failure_iff

/-- Two passes that have gone through the same over hosts that hold the same. -/
def Parallel (st : PassState (DirectoryHost σ)) (st' : PassState MemoryHost) : Prop :=
  ∃ m, st' = st.onHost m ∧ st.host.Alike m

theorem handed_of_parallel {st : PassState (DirectoryHost σ)} {st' : PassState MemoryHost}
    (hst : Parallel st st') (u : Delivery) :
    st.Handed (host fs) MemoryHost.host Failed Parallel st' u u := by
  obtain ⟨m, rfl, halike⟩ := hst
  have hoffered : ¬Failed (st.offered (host fs) u).transcript →
      (st.onHost m).answerTo MemoryHost.host u = st.answerTo (host fs) u ∧
        (st.offered (host fs) u).host.Alike (MemoryHost.offer u.hintName u.text m).2 := by
    intro hcalm
    refine halike.offered fun cause hio => hcalm ⟨u, cause, ?_⟩
    have hanswer : st.answerTo (host fs) u = .error (.io cause) := hio
    rw [PassState.offered, hanswer]
    exact List.mem_append_right _ List.mem_cons_self
  refine ⟨rfl, rfl, fun hcalm => (hoffered hcalm).1, fun hcalm => ?_, fun hcalm _ => ?_⟩
  · obtain ⟨hanswer, halike⟩ := hoffered hcalm
    refine ⟨_, ?_, halike⟩
    rw [PassState.offered, hanswer]
    rfl
  · obtain ⟨hanswer, halike⟩ := hoffered hcalm
    refine ⟨_, ?_, halike⟩
    rw [PassState.stored, PassState.stored, PassState.offered, hanswer]
    rfl

/-- A pass over a host on disk is followed by one over a host in memory until a request fails. -/
theorem simulates (fs : FileSystem σ) (i : PassInput) :
    i.Simulates (host fs) MemoryHost.host i Failed Eq Parallel where
  lapses := by rintro _ _ ht ⟨u, cause, hmem⟩; exact ⟨u, cause, ht.subset hmem⟩
  program := rfl
  discover := rfl
  source := by rintro _ _ rfl; rfl
  name := by rintro _ _ rfl; rfl
  owner? := by rintro _ _ w _ ⟨m, rfl, _⟩ rfl; rfl
  stops := by
    rintro st _ ⟨m, rfl, h⟩ turn
    have hrunning : (host fs).cancelled st.host = MemoryHost.host.cancelled m :=
      h.running.trans h.running'.symm
    rw [PassInput.stops, PassInput.stops, hrunning]
    rfl
  processed := by rintro _ _ ⟨m, rfl, _⟩; rfl
  stopping? := by rintro _ _ ⟨m, rfl, _⟩ r; rfl
  wrappersFor? := by
    rintro st _ ⟨m, rfl, _⟩ r
    change Option.Rel _ _ (i.program.wrappersFor? i.settings st.exposure r)
    cases i.program.wrappersFor? i.settings st.exposure r with
    | none => exact .none
    | some wrappers => exact .some (List.forall₂_refl wrappers)
  recorded := by rintro _ _ ⟨m, rfl, h⟩ _; exact ⟨m, rfl, h⟩
  told := by rintro _ _ ⟨m, rfl, h⟩ _; exact ⟨m, rfl, h⟩
  reported := by
    rintro _ _ ⟨m, rfl, h⟩ d
    exact ⟨m.report d, rfl, h.hintNames, h.running, h.running'⟩
  counted := by rintro _ _ ⟨m, rfl, h⟩; exact ⟨m, rfl, h⟩
  unitOf := by rintro _ _ w _ h rfl location; exact handed_of_parallel h _
  entered := by
    rintro st _ w _ ⟨m, rfl, h⟩ rfl
    refine ⟨m, ?_, by rwa [PassState.entered_host]⟩
    unfold PassState.entered
    cases w.mode <;> cases i.program.factory? i.settings w <;> rfl
  extensionsUnitOf := by
    rintro st _ ⟨m, rfl, h⟩
    change Option.Rel _ _ (i.settings.renderExtensions st.factories)
    cases i.settings.renderExtensions st.factories with
    | none => exact .none
    | some text => exact .some (handed_of_parallel ⟨m, rfl, h⟩ _)

/-- A pass comes to the same end over a host on disk and over a host in memory. -/
theorem outcome_of_alike {start : DirectoryHost σ} {m : MemoryHost} (hstart : start.Alike m)
    (hcalm : ¬Failed (i.run (host fs) start).transcript) :
    (i.run MemoryHost.host m).outcome = (i.run (host fs) start).outcome := by
  have hs := simulates fs i
  have hst : Parallel { host := start } { host := m } := ⟨m, rfl, hstart⟩
  have hexecute := hs.coincide_execute hst fun requests _ =>
    hs.coincide_deliverTriggers (hs.announced hst requests) rfl fun _ =>
      handed_of_parallel (hs.announced hst requests) _
  cases hexecute with
  | ok first second _ states =>
    obtain ⟨m, rfl, -⟩ := states
    rw [PassInput.run_of_ok first, PassInput.run_of_ok second]
    rfl
  | error first second =>
    rw [(PassInput.run_of_error first).1, (PassInput.run_of_error second).1]
  | lapsed gone =>
    obtain ⟨part, htranscript, -⟩ := PassInput.transcript_run (host fs) i start
    exact absurd (hs.lapses (htranscript ▸ List.prefix_append _ part) gone) hcalm

/-! ## The same sink -/

/-- The files of a host on disk are the units of a host in memory: one file for each, which was
written once, under its hint name, into the directory of the host. -/
structure Keeps (fs : FileSystem σ) (directory : String) (d : DirectoryHost (σ × Writes))
    (m : MemoryHost) : Prop where
  distinct : m.hintNames.Nodup
  valid : ∀ name ∈ m.hintNames, HintName.validate name = .ok ()
  listed : d.written.Perm m.hintNames
  sorted : d.written.Pairwise (· < ·)
  writes : d.disk.2 = m.sources.map fun s => (Path.join directory s.1, s.2)
  once : (d.disk.2.map (·.1)).Nodup
  contents : fs.KeepsApart directory → ∀ s ∈ m.sources,
    fs.read (Path.join directory s.1) d.disk.1 = .ok s.2

theorem Mirrors.keeps {directory : String} {d : DirectoryHost (σ × Writes)} {m : MemoryHost}
    (h : Mirrors fs directory d m) : Keeps fs directory d m where
  distinct := h.distinct
  valid := h.valid
  listed := h.hintNames ▸ sortedBy_perm id d.hintNames
  sorted := by
    have hnodup : (d.hintNames.map id).Nodup := by simpa [h.hintNames] using h.distinct
    exact sortedBy_pairwise_lt hnodup
  writes := h.writes
  once := by
    have hpaths : d.disk.2.map (·.1) = m.hintNames.map (Path.join directory) := by
      rw [h.writes, MemoryHost.hintNames, List.map_map, List.map_map]
      rfl
    rw [hpaths]
    refine List.Nodup.map_on (fun name hname other hother heq => ?_) h.distinct
    exact Path.join_inj (HintName.isEntryName (h.valid name hname)).plain
      (HintName.isEntryName (h.valid other hother)).plain heq
  contents := h.contents

/-- A host on disk and a host in memory are the same sink. As long as no file request fails, they
take and refuse the same units for the same reasons, and the files are the units that were
collected; passes over them come to the same end. Nothing is written outside the directory. -/
theorem same_sink (fs : FileSystem σ) (directory : String) (disk : σ) :
    (∀ units : List (String × String),
      let d := (host fs).offerAll units { root := directory, disk }
      let watched := (host fs.recording).offerAll units { root := directory, disk := (disk, []) }
      let m := MemoryHost.host.offerAll units {}
      d = (watched.1, watched.2.unrecorded) ∧
        (∀ w ∈ watched.2.disk.2, Path.IsChild directory w.1) ∧
        ((∀ cause, .error (.io cause) ∉ d.1) →
          m.1 = d.1 ∧ Keeps fs directory watched.2 m.2 ∧
            ∀ hintName text e, (∀ cause, e ≠ .io cause) →
              ((host fs).offer hintName text d.2).1 = .error e →
              ((host fs).offer hintName text d.2).2 = d.2 ∧
                MemoryHost.host.offer hintName text m.2 = (.error e, m.2))) ∧
      ∀ i : PassInput, ¬Failed (i.run (host fs) { root := directory, disk }).transcript →
        (i.run MemoryHost.host {}).outcome =
          (i.run (host fs) { root := directory, disk }).outcome := by
  refine ⟨fun units => ?_, fun i => outcome_of_alike ⟨rfl, rfl, rfl⟩⟩
  intro d watched m
  have hd : d = (watched.1, watched.2.unrecorded) :=
    offerAll_unrecorded fs units { root := directory, disk := (disk, []) }
  refine ⟨hd, isChild_of_offeredAll units rfl (List.forall_mem_nil _), fun hio => ?_⟩
  have hanswers : d.1 = watched.1 := congrArg Prod.fst hd
  rw [hanswers] at hio
  obtain ⟨hsame, hmirrors⟩ := (Mirrors.start fs directory disk).offeredAll hio
  refine ⟨hsame.trans hanswers.symm, hmirrors.keeps, fun hintName text e he hrefused => ?_⟩
  have halike : d.2.Alike m.2 := by
    rw [hd]
    exact ⟨hmirrors.hintNames, hmirrors.running, hmirrors.running'⟩
  have hio : ∀ cause, (offer fs hintName text d.2).1 ≠ .error (.io cause) := fun cause hfail =>
    he cause (Except.error.inj (hrefused.symm.trans hfail))
  have hanswer : (MemoryHost.offer hintName text m.2).1 = .error e :=
    (halike.offered hio).1.trans hrefused
  exact ⟨offer_of_refused hrefused he, Prod.ext hanswer (MemoryHost.offer_of_refused hanswer)⟩

/-- Of two units under one name the first is kept, a name that leads out of the directory is
refused, and a pass ends as it does in memory. -/
theorem sinks_of_flat :
    let units := [("Button.g.cs", "a"), ("../Button.g.cs", "b"), ("Button.g.cs", "c")]
    let d := (host flat).offerAll units { root := "out", disk := [] }
    let m := MemoryHost.host.offerAll units {}
    m.1 = d.1 ∧ (∀ s ∈ m.2.sources, flat.read (Path.join "out" s.1) d.2.disk = .ok s.2) ∧
      MemoryHost.host.offer "../Button.g.cs" "b" m.2 =
        (.error (.invalidFileName "../Button.g.cs" "name contains a path separator"), m.2) ∧
      ((Program.controls.pass {}).run MemoryHost.host {}).outcome =
        ((Program.controls.pass {}).run (host flat) { root := "out", disk := [] }).outcome := by
  intro units d m
  obtain ⟨hunits, hpasses⟩ := same_sink flat "out" []
  obtain ⟨hd, -, hanswers⟩ := hunits units
  have hgiven : d.1 = [.ok (),
      .error (.invalidFileName "../Button.g.cs" "name contains a path separator"),
      .error (.alreadyAdded "Button.g.cs")] := by decide
  obtain ⟨hsame, hkeeps, hrefused⟩ := hanswers (by
    change ∀ cause, .error (.io cause) ∉ d.1
    rw [hgiven]
    simp [HostError.alreadyAdded])
  have hcalm : ¬Failed ((Program.controls.pass {}).run (host flat)
      { root := "out", disk := [] }).transcript := by decide +kernel
  refine ⟨hsame, ?_, (hrefused _ _ _ (by simp) ?_).2, hpasses _ hcalm⟩
  · have hread := hkeeps.contents (keepsApart_flat "out")
    rwa [show d = _ from hd]
  · rfl

end DirectoryHost

end EventWrap
