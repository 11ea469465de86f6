import EventWrap.Document.Loading
import EventWrap.Proofs.Document.Resolving
import EventWrap.Proofs.Program.Index

/-!
# Declaring the types of a document

The types of a document are declared one after the other, each at the next place. Where every type
is listed after the one that it is nested in, this comes to an end exactly when the types are
worded, have new and distinct names, and are nested in types that there are: nothing of this depends
on the order in which they are listed.
-/

namespace EventWrap

namespace Document.TypeEntry

/-! ## Names of entries -/

def simpleName (t : TypeEntry) : String := (t.header none).simpleName

/-- The metadata name that the type of an entry receives. -/
def metadataName (t : TypeEntry) : String :=
  match t.container with
  | some outer => outer ++ "+" ++ t.simpleName
  | none => qualify t.namespaceName t.simpleName

/-- The header that an entry has in a program with the type that it is nested in. -/
def headerIn (t : TypeEntry) (p : Program) : Declaration := t.header (t.container.bind p.resolve?)

theorem container_ne_metadataName (t : TypeEntry) : t.container ≠ some t.metadataName := by
  rw [metadataName]
  cases t.container with
  | none => rintro ⟨⟩
  | some outer =>
    intro h
    have hlength := congrArg String.length (Option.some.inj h)
    simp only [String.length_append] at hlength
    have hplus : "+".length = 1 := by decide
    omega

/-- An entry has a name, and a signature where it is of a delegate. -/
structure IsWorded (t : TypeEntry) : Prop where
  name : t.name.isEmpty = false
  signature : ¬(t.kind = .delegateType ∧ t.invoke.isNone = true)

/-- An entry can be declared in a program: it is nested in a type that there is, and its name is
new. -/
structure FitsIn (t : TypeEntry) (p : Program) : Prop extends t.IsWorded where
  container : ∀ outer, t.container = some outer → ∃ id, p.resolve? outer = some id
  fresh : p.resolve? t.metadataName = none

end Document.TypeEntry

open Document

/-! ## One type -/

namespace Program.Indexed

variable {p : Program} {t : TypeEntry}

theorem container_headerIn_lt (h : p.Indexed) {outer : TypeId}
    (hc : (t.headerIn p).container = some outer) :
    outer < p.size := by
  obtain ⟨name, -, hres⟩ := Option.bind_eq_some_iff.1 hc
  exact (h.resolve?_iff.1 hres).1

/-- The name of a new type is the one that its entry tells. -/
theorem metadataName_headerIn (h : p.Indexed)
    (hcontainer : ∀ outer, t.container = some outer → ∃ id, p.resolve? outer = some id) :
    (p.nestingOf (t.headerIn p)).metadataName = t.metadataName := by
  rw [TypeEntry.metadataName]
  cases hc : t.container with
  | none =>
    rw [metadataName_nestingOf_outermost]
    · rfl
    · rw [TypeEntry.headerIn, hc]
      rfl
  | some name =>
    obtain ⟨outer, hres⟩ := hcontainer name hc
    have hheader : (t.headerIn p).container = some outer := by
      rw [TypeEntry.headerIn, hc]
      exact hres
    rw [metadataName_nestingOf hheader, (h.resolve?_iff.1 hres).2]
    rfl

end Program.Indexed

namespace Loading

theorem bind_eq_ok_iff {α β : Type} {x : Loading α} {f : α → Loading β} {b : β} {p p' : Program} :
    (x >>= f) p = .ok b p' ↔ ∃ a p₁, x p = .ok a p₁ ∧ f a p₁ = .ok b p' := by
  simp only [bind, EStateM.bind]
  cases x p with
  | ok a p₁ =>
    constructor
    · exact fun h => ⟨a, p₁, rfl, h⟩
    · rintro ⟨_, _, ⟨⟩, h⟩
      exact h
  | error e p₁ =>
    constructor
    · rintro ⟨⟩
    · rintro ⟨_, _, ⟨⟩, _⟩

variable {base p : Program} {t : TypeEntry} {id : TypeId}

theorem declareType_run (t : TypeEntry) (p : Program) :
    declareType t p =
      if t.name.isEmpty then .error .namelessType p
      else if t.kind = .delegateType ∧ t.invoke.isNone then .error
        (.delegateWithoutSignature t.name) p
      else match t.container.mapM (resolveName p t.name) with
        | .error e => .error e p
        | .ok container =>
          match p.add (t.header container) with
          | .ok (id, p) => .ok id p
          | .error name => .error (.duplicateType name) p := by
  unfold declareType
  split
  · rfl
  · split
    · rfl
    · simp only [bind, EStateM.bind, ask]
      cases t.container.mapM (resolveName p t.name) <;> rfl

theorem mapM_resolveName_container {context : String} {container : Option TypeId} :
    t.container.mapM (resolveName p context) = .ok container ↔
      (∀ outer, t.container = some outer → ∃ id, p.resolve? outer = some id) ∧
        container = t.container.bind p.resolve? := by
  cases t.container with
  | none =>
    constructor
    · rintro ⟨⟩
      exact ⟨nofun, rfl⟩
    · rintro ⟨-, rfl⟩
      rfl
  | some outer =>
    rw [Option.bind_some]
    constructor
    · intro h
      obtain ⟨id, hid, rfl⟩ := map_eq_ok_iff.1 h
      have hres := resolve?_of_resolveName hid
      refine ⟨?_, hres.symm⟩
      rintro _ ⟨⟩
      exact ⟨id, hres⟩
    · rintro ⟨hfound, rfl⟩
      obtain ⟨id, hres⟩ := hfound outer rfl
      refine map_eq_ok_iff.2 ⟨id, ?_, hres.symm⟩
      rw [resolveName, hres]

/-- A type is declared where it fits in, at the next place. -/
theorem declareType_eq_ok_iff (h : base.Indexed) :
    declareType t base = .ok id p ↔ t.FitsIn base ∧ id = base.size ∧
      p = base.push (t.headerIn base) := by
  rw [declareType_run]
  constructor
  · intro hrun
    split at hrun
    · cases hrun
    · next hname =>
      split at hrun
      · cases hrun
      · next hsignature =>
        split at hrun
        · cases hrun
        · next container hcontainer =>
          obtain ⟨hfound, rfl⟩ := mapM_resolveName_container.1 hcontainer
          have hnew := h.metadataName_headerIn hfound
          rw [Program.add, Program.contains] at hrun
          split at hrun
          · next hadd =>
            split at hadd
            · cases hadd
            · next hfresh =>
              cases hadd
              cases hrun
              refine ⟨⟨⟨by simpa using hname, hsignature⟩, hfound, ?_⟩, rfl, rfl⟩
              rw [← hnew]
              exact Option.not_isSome_iff_eq_none.1 hfresh
          · cases hrun
  · rintro ⟨hfits, rfl, rfl⟩
    have hnew := h.metadataName_headerIn hfits.container
    rw [if_neg (by simp [hfits.name]), if_neg hfits.signature,
      mapM_resolveName_container.2 ⟨hfits.container, rfl⟩]
    have hadd : base.add (t.headerIn base) = .ok (base.size, base.push (t.headerIn base)) := by
      rw [Program.add, Program.contains, hnew, hfits.fresh]
      rfl
    rw [TypeEntry.headerIn] at hadd
    simp only [hadd, TypeEntry.headerIn]

end Loading

/-! ## All types -/

namespace Document

/-- The entries with the places that their types take on top of a program. -/
def places (base : Program) (entries : List TypeEntry) : List (TypeEntry × TypeId) :=
  entries.zip (List.range' base.size entries.length)

/-- A program holds the headers of some entries on top of another one, in their order. -/
structure Declared (base : Program) (entries : List TypeEntry) (p : Program) : Prop where
  indexed : p.Indexed
  size : p.size = base.size + entries.length
  kept : ∀ {id}, id < base.size → p.declaration id = base.declaration id
  found : ∀ {name id}, base.resolve? name = some id → p.resolve? name = some id
  placed : ∀ x ∈ places base entries, p.resolve? x.1.metadataName = some x.2 ∧
    p.declaration x.2 = x.1.headerIn p
  assemblyAttributes : p.assemblyAttributes = base.assemblyAttributes
  invocations : p.invocations = base.invocations

/-- The entries can be declared on top of a program, in an order that lists outer types first. -/
structure Declarable (base : Program) (entries : List TypeEntry) : Prop where
  worded : ∀ t ∈ entries, t.IsWorded
  contained : ∀ t ∈ entries, ∀ outer, t.container = some outer →
    (∃ id, base.resolve? outer = some id) ∨ ∃ t' ∈ entries, t'.metadataName = outer
  fresh : ∀ t ∈ entries, base.resolve? t.metadataName = none
  distinct : (entries.map (·.metadataName)).Nodup

theorem Declared.nil {base : Program} (h : base.Indexed) : Declared base [] base where
  indexed := h
  size := rfl
  kept _ := rfl
  found hres := hres
  placed := List.forall_mem_nil _
  assemblyAttributes := rfl
  invocations := rfl

theorem Declarable.nil (base : Program) : Declarable base [] where
  worded := List.forall_mem_nil _
  contained := List.forall_mem_nil _
  fresh := List.forall_mem_nil _
  distinct := List.nodup_nil

/-- The first entry fits in where it is nested in none of the later ones. -/
theorem Declarable.head {base : Program} {t : TypeEntry} {rest : List TypeEntry}
    (hall : Declarable base (t :: rest))
    (houter : ∀ t' ∈ rest, t.container ≠ some t'.metadataName) : t.FitsIn base where
  toIsWorded := hall.worded t List.mem_cons_self
  fresh := hall.fresh t List.mem_cons_self
  container := by
    intro outer hc
    rcases hall.contained t List.mem_cons_self outer hc with hfound | ⟨t', ht', rfl⟩
    · exact hfound
    · rcases List.mem_cons.1 ht' with rfl | ht'
      · exact absurd hc t'.container_ne_metadataName
      · exact absurd hc (houter t' ht')

section Step

variable {base p : Program} {t : TypeEntry} {rest : List TypeEntry} (h : base.Indexed)

include h

theorem resolve?_push_headerIn (ht : t.FitsIn base) (name : String) :
    (base.push (t.headerIn base)).resolve? name =
      if name = t.metadataName then some base.size else base.resolve? name := by
  rw [Program.resolve?_push, h.metadataName_headerIn ht.container]

theorem indexed_push_headerIn (ht : t.FitsIn base) : (base.push (t.headerIn base)).Indexed := by
  refine h.push (fun outer hc => h.container_headerIn_lt hc) ?_
  rw [h.metadataName_headerIn ht.container]
  exact ht.fresh

theorem Declared.cons (ht : t.FitsIn base) (hrest : Declared (base.push (t.headerIn base)) rest p) :
    Declared base (t :: rest) p := by
  have hfound : ∀ {name id}, base.resolve? name = some id → p.resolve? name = some id := by
    intro name id hres
    apply hrest.found
    apply Program.resolve?_push_of_eq_some hres
    rw [h.metadataName_headerIn ht.container]
    exact ht.fresh
  have hheader : t.headerIn p = t.headerIn base := by
    rw [TypeEntry.headerIn, TypeEntry.headerIn]
    congr 1
    cases hc : t.container with
    | none => rfl
    | some outer =>
      obtain ⟨id, hres⟩ := ht.container outer hc
      rw [Option.bind_some, Option.bind_some, hres, hfound hres]
  have hsize : (base.push (t.headerIn base)).size = base.size + 1 := Program.size_push _ _
  refine ⟨hrest.indexed, ?_, ?_, hfound, ?_, hrest.assemblyAttributes, hrest.invocations⟩
  · rw [hrest.size, hsize, List.length_cons]
    omega
  · intro id hid
    rw [hrest.kept (by omega), Program.declaration_push_of_lt hid]
  · rw [places, List.length_cons, List.range'_succ, List.zip_cons_cons]
    refine List.forall_mem_cons.2 ⟨⟨?_, ?_⟩, hsize ▸ hrest.placed⟩
    · apply hrest.found
      rw [resolve?_push_headerIn h ht, if_pos rfl]
    · rw [hrest.kept (by omega), Program.declaration_push_self, hheader]

theorem Declarable.cons (ht : t.FitsIn base)
    (hrest : Declarable (base.push (t.headerIn base)) rest) :
    Declarable base (t :: rest) where
  worded := List.forall_mem_cons.2 ⟨ht.toIsWorded, hrest.worded⟩
  contained := by
    refine List.forall_mem_cons.2 ⟨fun outer hc => .inl (ht.container outer hc), ?_⟩
    intro t' ht' outer hc
    rcases hrest.contained t' ht' outer hc with ⟨id, hres⟩ | ⟨t'', hmem, hname⟩
    · rw [resolve?_push_headerIn h ht] at hres
      split at hres
      · next heq => exact .inr ⟨t, List.mem_cons_self, heq.symm⟩
      · exact .inl ⟨id, hres⟩
    · exact .inr ⟨t'', List.mem_cons_of_mem _ hmem, hname⟩
  fresh := by
    refine List.forall_mem_cons.2 ⟨ht.fresh, ?_⟩
    intro t' ht'
    have hfresh := hrest.fresh t' ht'
    rw [resolve?_push_headerIn h ht] at hfresh
    split at hfresh
    · cases hfresh
    · exact hfresh
  distinct := by
    rw [List.map_cons, List.nodup_cons]
    refine ⟨?_, hrest.distinct⟩
    intro hmem
    obtain ⟨t', ht', heq⟩ := List.mem_map.1 hmem
    have hfresh := hrest.fresh t' ht'
    rw [resolve?_push_headerIn h ht, if_pos heq] at hfresh
    cases hfresh

theorem Declarable.tail (hall : Declarable base (t :: rest)) (ht : t.FitsIn base) :
    Declarable (base.push (t.headerIn base)) rest where
  worded t' ht' := hall.worded t' (List.mem_cons_of_mem _ ht')
  contained := by
    intro t' ht' outer hc
    simp only [resolve?_push_headerIn h ht]
    by_cases houter : outer = t.metadataName
    · exact .inl ⟨base.size, by rw [if_pos houter]⟩
    · rw [if_neg houter]
      rcases hall.contained t' (List.mem_cons_of_mem _ ht') outer hc with hfound | ⟨t'', ht'', rfl⟩
      · exact .inl hfound
      · rcases List.mem_cons.1 ht'' with rfl | ht''
        · exact absurd rfl houter
        · exact .inr ⟨t'', ht'', rfl⟩
  fresh := by
    intro t' ht'
    have hne := (List.nodup_cons.1 hall.distinct).1
    rw [resolve?_push_headerIn h ht, if_neg]
    · exact hall.fresh t' (List.mem_cons_of_mem _ ht')
    · exact fun heq => hne (List.mem_map.2 ⟨t', ht', heq⟩)
  distinct := (List.nodup_cons.1 hall.distinct).2

end Step

/-! ## Places of entries -/

section Places

variable {base p : Program} {entries : List TypeEntry} {x : TypeEntry × TypeId}

theorem map_fst_places (base : Program) (entries : List TypeEntry) :
    (places base entries).map (·.1) = entries :=
  List.map_fst_zip (Nat.le_of_eq List.length_range'.symm)

theorem map_snd_places (base : Program) (entries : List TypeEntry) :
    (places base entries).map (·.2) = List.range' base.size entries.length :=
  List.map_snd_zip (Nat.le_of_eq List.length_range')

theorem nodup_snd_places (base : Program) (entries : List TypeEntry) :
    ((places base entries).map (·.2)).Nodup := by
  rw [map_snd_places]
  exact List.nodup_range'

/-- Every entry has a place. -/
theorem exists_place (base : Program) {t : TypeEntry} (ht : t ∈ entries) :
    ∃ id, (t, id) ∈ places base entries := by
  rw [← map_fst_places base entries] at ht
  obtain ⟨⟨_, id⟩, hx, rfl⟩ := List.mem_map.1 ht
  exact ⟨id, hx⟩

theorem fst_mem_of_mem_places (hx : x ∈ places base entries) : x.1 ∈ entries := by
  rw [← map_fst_places base entries]
  exact List.mem_map_of_mem hx

namespace Declared

variable (h : Declared base entries p)

include h

/-- The places of entries are those after the places of the base. -/
theorem mem_snd_places_iff {id : TypeId} :
    id ∈ (places base entries).map (·.2) ↔ base.size ≤ id ∧ id < p.size := by
  rw [map_snd_places, List.mem_range'_1, h.size]

theorem exists_entry {id : TypeId} (hbase : base.size ≤ id) (hid : id < p.size) :
    ∃ t, (t, id) ∈ places base entries := by
  obtain ⟨⟨t, _⟩, hx, rfl⟩ := List.mem_map.1 (h.mem_snd_places_iff.2 ⟨hbase, hid⟩)
  exact ⟨t, hx⟩

/-- The types of the base keep their names. -/
theorem metadataName_of_lt (hbase : base.Indexed) {id : TypeId} (hid : id < base.size) :
    p.metadataName id = base.metadataName id :=
  (h.indexed.resolve?_iff.1 (h.found (hbase.resolve?_metadataName hid))).2

/-- A name is one of the base or of an entry. -/
theorem resolve?_cases (hbase : base.Indexed) {name : String} {id : TypeId}
    (hres : p.resolve? name = some id) :
    base.resolve? name = some id ∨ ∃ t ∈ entries, t.metadataName = name := by
  obtain ⟨hid, rfl⟩ := h.indexed.resolve?_iff.1 hres
  by_cases hlt : id < base.size
  · left
    rw [h.metadataName_of_lt hbase hlt]
    exact hbase.resolve?_metadataName hlt
  · obtain ⟨t, hx⟩ := h.exists_entry (Nat.le_of_not_lt hlt) hid
    refine .inr ⟨t, fst_mem_of_mem_places hx, ?_⟩
    exact (h.indexed.resolve?_iff.1 (h.placed _ hx).1).2.symm

end Declared

end Places

end Document

namespace Loading

variable {base p : Program} {entries : List TypeEntry} {ids : List TypeId}

/-- Where all types could be declared, they are, and nothing stood against it. -/
theorem declared_of_mapM (h : base.Indexed) (hrun : entries.mapM declareType base = .ok ids p) :
    Declared base entries p ∧ Declarable base entries ∧
      ids = List.range' base.size entries.length := by
  induction entries generalizing base ids with
  | nil =>
    cases hrun
    exact ⟨.nil h, .nil _, rfl⟩
  | cons t rest ih =>
    rw [List.mapM_cons] at hrun
    obtain ⟨id, p₁, hdeclare, hrun⟩ := bind_eq_ok_iff.1 hrun
    obtain ⟨ids', p₂, hrest, ⟨⟩⟩ := bind_eq_ok_iff.1 hrun
    obtain ⟨ht, rfl, rfl⟩ := (declareType_eq_ok_iff h).1 hdeclare
    obtain ⟨hdeclared, hdeclarable, rfl⟩ := ih (indexed_push_headerIn h ht) hrest
    refine ⟨hdeclared.cons h ht, hdeclarable.cons h ht, ?_⟩
    rw [List.length_cons, List.range'_succ, Program.size_push]

/-- Types that nothing stands against are all declared, outer types first. -/
theorem exists_mapM_declareType (h : base.Indexed) (hall : Declarable base entries)
    (houter : entries.Pairwise fun t t' => t.container ≠ some t'.metadataName) :
    ∃ ids p, entries.mapM declareType base = .ok ids p := by
  induction entries generalizing base with
  | nil => exact ⟨[], base, rfl⟩
  | cons t rest ih =>
    obtain ⟨hhead, htail⟩ := List.pairwise_cons.1 houter
    have ht := hall.head hhead
    have hdeclare := (declareType_eq_ok_iff h).2 ⟨ht, rfl, rfl⟩
    obtain ⟨ids, p, hrest⟩ := ih (indexed_push_headerIn h ht) (hall.tail h ht) htail
    rw [List.mapM_cons]
    exact ⟨base.size :: ids, p, bind_eq_ok_iff.2
      ⟨_, _, hdeclare, bind_eq_ok_iff.2 ⟨_, _, hrest, rfl⟩⟩⟩

end Loading

end EventWrap
