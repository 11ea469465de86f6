import EventWrap.Proofs.Document.Completing
import EventWrap.Proofs.Document.Foundation
import EventWrap.Proofs.Renaming.Requests

/-!
# Rearranged documents

A document may list its types, attributes and invocations in another order, with outer types before
the types nested in them, and the events of a type, too, where their names are distinct. The program
that it describes is then the same one up to the places of types.
-/

namespace EventWrap

namespace Document

/-! ## Rearranging -/

/-- The same types, invocations and attributes in any order, with the events of types in an order
that cannot be noticed. -/
structure Rearranges (d d' : Document) : Prop where
  types : ∃ middle, d.types.Perm middle ∧ List.Forall₂ TypeEntry.IsReordered middle d'.types
  invocations : d.invocations.Perm d'.invocations
  assemblyAttributes : d.assemblyAttributes.Perm d'.assemblyAttributes

/-- Types are listed after the ones that they are nested in. -/
def OuterFirst (d : Document) : Prop :=
  d.types.Pairwise fun t t' => t.container ≠ some t'.metadataName

instance (d : Document) : Decidable d.OuterFirst := inferInstanceAs (Decidable (d.types.Pairwise _))

namespace TypeEntry.IsReordered

variable {t t' : TypeEntry}

theorem refl (t : TypeEntry) : t.IsReordered t := ⟨rfl, .refl _ _⟩

theorem symm (h : t.IsReordered t') : t'.IsReordered t where
  same := by rw [h.same]
  events := h.events.symm

section Views

variable (h : t.IsReordered t')

include h

theorem header (container : Option TypeId) : t'.header container = t.header container := by
  rw [h.same]
  rfl

theorem container : t'.container = t.container := by rw [h.same]

theorem metadataName : t'.metadataName = t.metadataName := by
  rw [TypeEntry.metadataName, TypeEntry.metadataName, TypeEntry.simpleName, TypeEntry.simpleName,
    h.header, h.container, h.same]

theorem isWorded (ht : t.IsWorded) : t'.IsWorded := by
  rw [h.same]
  exact ⟨ht.name, ht.signature⟩

end Views

end TypeEntry.IsReordered

namespace Rearranges

variable {d d' : Document}

theorem symm (h : d.Rearranges d') : d'.Rearranges d where
  types := by
    obtain ⟨middle, hperm, hrel⟩ := h.types
    have hrel' : List.Forall₂ (flip TypeEntry.IsReordered) middle d'.types :=
      hrel.imp fun _ _ ht => ht.symm
    obtain ⟨middle', hrel'', hperm'⟩ := List.perm_comp_forall₂ hperm hrel'
    exact ⟨middle', hperm'.symm, hrel''.flip⟩
  invocations := h.invocations.symm
  assemblyAttributes := h.assemblyAttributes.symm

/-- Every type is listed in a rearranged document, too. -/
theorem exists_entry (h : d.Rearranges d') {t : TypeEntry} (ht : t ∈ d.types) :
    ∃ t' ∈ d'.types, t.IsReordered t' := by
  obtain ⟨middle, hperm, hrel⟩ := h.types
  have hmem := hperm.mem_iff.1 ht
  clear ht hperm
  generalize d'.types = types' at hrel ⊢
  induction hrel with
  | nil => cases hmem
  | @cons a b _ _ hab _ ih =>
    rcases List.mem_cons.1 hmem with rfl | hmem
    · exact ⟨b, List.mem_cons_self, hab⟩
    · obtain ⟨t', ht', hrel⟩ := ih hmem
      exact ⟨t', List.mem_cons_of_mem _ ht', hrel⟩

theorem length_types (h : d.Rearranges d') : d'.types.length = d.types.length := by
  obtain ⟨middle, hperm, hrel⟩ := h.types
  rw [hperm.length_eq, hrel.length_eq]

theorem metadataNames (h : d.Rearranges d') :
    (d.types.map (·.metadataName)).Perm (d'.types.map (·.metadataName)) := by
  obtain ⟨middle, hperm, hrel⟩ := h.types
  have hnames : d'.types.map (·.metadataName) = middle.map (·.metadataName) := by
    clear hperm
    generalize d'.types = types' at hrel ⊢
    induction hrel with
    | nil => rfl
    | cons hab _ ih => rw [List.map_cons, List.map_cons, hab.metadataName, ih]
  rw [hnames]
  exact hperm.map _

/-- What stands against declaring the types of a document does not depend on their order. -/
theorem declarable (h : d.Rearranges d') {base : Program} (hd : Declarable base d.types) :
    Declarable base d'.types where
  worded := by
    intro t' ht'
    obtain ⟨t, ht, hrel⟩ := h.symm.exists_entry ht'
    exact hrel.symm.isWorded (hd.worded t ht)
  contained := by
    intro t' ht' outer hc
    obtain ⟨t, ht, hrel⟩ := h.symm.exists_entry ht'
    rcases hd.contained t ht outer (hrel.container.trans hc) with hfound | ⟨s, hs, hname⟩
    · exact .inl hfound
    · obtain ⟨s', hs', hrel'⟩ := h.exists_entry hs
      exact .inr ⟨s', hs', hrel'.metadataName.trans hname⟩
  fresh := by
    intro t' ht'
    obtain ⟨t, ht, hrel⟩ := h.symm.exists_entry ht'
    rw [← hrel.metadataName]
    exact hd.fresh t ht
  distinct := h.metadataNames.nodup_iff.1 hd.distinct

end Rearranges

end Document

open Document

/-! ## Programs with headers -/

namespace Document.Rearranges

variable {d d' : Document} {base p q : Program} (h : d.Rearranges d') (hbase : base.IsFoundation)
  (hp : Declared base d.types p) (hq : Declared base d'.types q)

include h hbase hp hq

/-- What is found by a name is found in a rearranged document, too. -/
theorem exists_resolve? {name : String} {id : TypeId} (hres : p.resolve? name = some id) :
    ∃ id', q.resolve? name = some id' := by
  rcases hp.resolve?_cases hbase.indexed hres with hfound | ⟨t, ht, rfl⟩
  · exact ⟨id, hq.found hfound⟩
  · obtain ⟨t', ht', hrel⟩ := h.exists_entry ht
    obtain ⟨id', hid'⟩ := exists_place base ht'
    rw [← hrel.metadataName]
    exact ⟨id', (hq.placed _ hid').1⟩

/-- Rearranged documents declare types of the same names. -/
theorem sameNames : p.SameNames q where
  source := hp.indexed
  target := hq.indexed
  size := by rw [hp.size, hq.size, h.length_types]
  isSome_resolve? := by
    intro name
    rw [Bool.eq_iff_iff, Option.isSome_iff_exists, Option.isSome_iff_exists]
    constructor
    · exact fun ⟨_, hres⟩ => h.symm.exists_resolve? hbase hq hp hres
    · exact fun ⟨_, hres⟩ => h.exists_resolve? hbase hp hq hres

theorem relocation_of_lt {id : TypeId} (hid : id < base.size) : p.relocation q id = id := by
  have hres := hbase.indexed.resolve?_metadataName hid
  have hreloc := (h.sameNames hbase hp hq).resolve?_relocation_of_some (hp.found hres)
  exact Option.some.inj (hreloc.symm.trans (hq.found hres))

/-- The place of an entry is relocated to the place of the entry that it was rearranged to. -/
theorem relocation_of_isReordered {t t' : TypeEntry} {id id' : TypeId}
    (hid : (t, id) ∈ places base d.types)
    (hid' : (t', id') ∈ places base d'.types) (ht : t.IsReordered t') :
    p.relocation q id = id' := by
  have hreloc := (h.sameNames hbase hp hq).resolve?_relocation_of_some (hp.placed _ hid).1
  have hres := (hq.placed _ hid').1
  rw [ht.metadataName] at hres
  exact Option.some.inj (hreloc.symm.trans hres)

theorem headerIn {t t' : TypeEntry} (ht : t.IsReordered t') :
    t'.headerIn q = (t.headerIn p).rename (p.relocation q) := by
  have hcontainer : t.container.bind q.resolve? =
      (t.container.bind p.resolve?).map (p.relocation q) := by
    cases t.container with
    | none => rfl
    | some outer => exact (h.sameNames hbase hp hq).resolve?_relocation outer
  have hparameters : ∀ parameters : List TypeParameterEntry,
      (parameters.map fun a => ({ name := a.name } : TypeParameter)).map
      (·.rename (p.relocation q)) =
        parameters.map fun a => { name := a.name } := by
    intro parameters
    rw [List.map_map]
    rfl
  rw [TypeEntry.headerIn, TypeEntry.headerIn, ht.header, ht.container, hcontainer, TypeEntry.header,
    TypeEntry.header, Declaration.rename, hparameters]
  rfl

/-- The headers of rearranged documents are renamed by relocation. -/
theorem declaration_headers (id : TypeId) :
    q.declaration (p.relocation q id) = (p.declaration id).rename (p.relocation q) := by
  by_cases hlt : id < base.size
  · rw [h.relocation_of_lt hbase hp hq hlt, hq.kept hlt, hp.kept hlt]
    exact (hbase.isClosed _ (fun id hid => h.relocation_of_lt hbase hp hq hid) id).symm
  · by_cases hid : id < p.size
    · obtain ⟨t, hx⟩ := hp.exists_entry (Nat.le_of_not_lt hlt) hid
      obtain ⟨t', ht', hrel⟩ := h.exists_entry (fst_mem_of_mem_places hx)
      obtain ⟨id', hx'⟩ := exists_place base ht'
      rw [h.relocation_of_isReordered hbase hp hq hx hx' hrel, (hq.placed _ hx').2,
        (hp.placed _ hx).2, h.headerIn hbase hp hq hrel]
    · have hsize : q.size ≤ id := (h.sameNames hbase hp hq).size ▸ Nat.le_of_not_lt hid
      rw [Program.relocation_of_size_le q (Nat.le_of_not_lt hid),
        Program.declaration_of_size_le hsize, Program.declaration_of_size_le (Nat.le_of_not_lt hid)]
      rfl

theorem renames_headers : p.Renames (p.relocation q) q where
  injective := (h.sameNames hbase hp hq).injective_relocation
  size := (h.sameNames hbase hp hq).size
  source := hp.indexed.outerFirst
  target := hq.indexed.outerFirst
  declaration id :=
    { same := by rw [h.declaration_headers hbase hp hq]
      events := by
        rw [h.declaration_headers hbase hp hq]
        exact .refl _ _ }

theorem resolvesAlike : p.ResolvesAlike (p.relocation q) q where
  resolve? hres := (h.sameNames hbase hp hq).resolve?_relocation_of_some hres
  arity id := ((h.renames_headers hbase hp hq).declaration id).arity

/-- The details of an entry are those of the entry that it was rearranged to, renamed. -/
theorem exists_resolveDetails {t t' : TypeEntry} (ht : t.IsReordered t') {id : TypeId}
    {details : Details} (hdetails : resolveDetails p id t = .ok details) :
    ∃ events, resolveDetails q (p.relocation q id) t' =
      .ok { details.rename (p.relocation q) with events } ∧
      Occurrence.Reordered (fun e => e.name)
        (details.events.map (·.rename (p.relocation q))) events := by
  have hscope : (q.typeParametersInScope (p.relocation q id)).map (·.name) =
      (p.typeParametersInScope id).map (·.name) := by
    rw [(h.renames_headers hbase hp hq).typeParametersInScope, List.map_map]
    rfl
  exact exists_resolveDetails_of_isReordered ht
    ((h.resolvesAlike hbase hp hq).resolveDetails hscope hdetails)

end Document.Rearranges

/-! ## Whole programs -/

namespace Document.Rearranges

variable {d d' : Document} {base headers headers' p q : Program} (h : d.Rearranges d')
    (hbase : base.IsFoundation)

include h hbase

/-- The declarations of rearranged documents are renamed by relocation. -/
theorem declaration_isRenamed (hp : Loaded base d headers p) (hq : Loaded base d' headers' q)
    (id : TypeId) :
    (p.declaration id).IsRenamed (headers.relocation headers')
      (q.declaration (headers.relocation headers' id)) := by
  have hheaders := h.declaration_headers hbase hp.declared hq.declared id
  by_cases hid : id ∈ (places base d.types).map (·.2)
  · obtain ⟨⟨t, id⟩, hx, rfl⟩ := List.mem_map.1 hid
    obtain ⟨t', ht', hrel⟩ := h.exists_entry (fst_mem_of_mem_places hx)
    obtain ⟨id', hx'⟩ := exists_place base ht'
    obtain rfl := h.relocation_of_isReordered hbase hp.declared hq.declared hx hx' hrel
    obtain ⟨details, hdetails, hp'⟩ := hp.completed.detailed _ hx
    obtain ⟨details', hdetails', hq'⟩ := hq.completed.detailed _ hx'
    obtain ⟨events, hresolved, hevents⟩ :=
      h.exists_resolveDetails hbase hp.declared hq.declared hrel hdetails
    obtain rfl := Except.ok.inj (hdetails'.symm.trans hresolved)
    rw [hp', hq', hheaders]
    exact ⟨rfl, hevents⟩
  · have hsize := (h.sameNames hbase hp.declared hq.declared).size
    have hid' : headers.relocation headers' id ∉ (places base d'.types).map (·.2) := by
      rw [hp.declared.mem_snd_places_iff, not_and, Nat.not_lt] at hid
      rw [hq.declared.mem_snd_places_iff, hsize]
      by_cases hlt : id < base.size
      · rw [h.relocation_of_lt hbase hp.declared hq.declared hlt]
        exact fun hmem => absurd hlt (Nat.not_lt.2 hmem.1)
      · have hle := hid (Nat.le_of_not_lt hlt)
        rw [Program.relocation_of_size_le headers' hle]
        exact fun hmem => absurd hmem.2 (Nat.not_lt.2 hle)
    rw [hp.completed.others id hid, hq.completed.others _ hid', hheaders]
    exact ⟨rfl, .refl _ _⟩

/-- A rearranged document makes a rearranged program. -/
theorem rearranges (hp : Loaded base d headers p) (hq : Loaded base d' headers' q) :
    p.Rearranges (headers.relocation headers') q := by
  have hnames := h.sameNames hbase hp.declared hq.declared
  have halike := h.resolvesAlike hbase hp.declared hq.declared
  have hindexed : p.Indexed := hp.completed.indexed hp.declared.indexed
  have hresolved : ∀ {name id}, headers.resolve? name = some id → id < p.size := by
    intro name id hres
    rw [hp.completed.size]
    exact (hp.declared.indexed.resolve?_iff.1 hres).1
  obtain ⟨attributes, hresolve, hpattributes⟩ := hp.assemblyAttributes
  obtain ⟨attributes', hresolve', hqattributes⟩ := hq.assemblyAttributes
  obtain ⟨invocations, hresolves, hpinvocations⟩ := hp.invocations
  obtain ⟨invocations', hresolves', hqinvocations⟩ := hq.invocations
  rw [hbase.assemblyAttributes, List.nil_append] at hpattributes hqattributes
  rw [hbase.invocations, List.nil_append] at hpinvocations hqinvocations
  refine ⟨⟨hnames.injective_relocation, ?_, hindexed.outerFirst,
    hq.completed.outerFirst hq.declared.indexed.outerFirst,
    h.declaration_isRenamed hbase hp hq⟩, ?_, fun ha hb =>
    hindexed.eq_of_metadataName_eq ha hb, ?_, ?_, ?_, ?_⟩
  · rw [hp.completed.size, hq.completed.size, hnames.size]
  · intro name
    rw [hq.completed.resolve?, hp.completed.resolve?]
    exact hnames.resolve?_relocation name
  · obtain ⟨r, hr, hperm⟩ :=
      exists_mapM_of_perm h.invocations (mapM_ok_map halike.resolveInvocation hresolves)
    obtain rfl := Except.ok.inj (hr.symm.trans hresolves')
    rw [hpinvocations, hqinvocations]
    exact hperm
  · obtain ⟨r, hr, hperm⟩ :=
      exists_mapM_of_perm h.assemblyAttributes (mapM_ok_map halike.resolveAttribute hresolve)
    obtain rfl := Except.ok.inj (hr.symm.trans hresolve')
    rw [hpattributes, hqattributes]
    exact hperm
  · intro i hi r hr id hid
    rw [hpinvocations] at hi
    obtain ⟨entry, -, hentry⟩ := exists_of_mem_mapM hresolves hi
    obtain ⟨name, hname⟩ := exists_resolve?_of_mem_typeArguments hentry hr hid
    exact hresolved hname
  · intro a ha r id hr hid
    rw [hpattributes] at ha
    obtain ⟨entry, -, hentry⟩ := exists_of_mem_mapM hresolve ha
    obtain ⟨name, hname⟩ := exists_resolve?_of_typeArgument? hentry hr hid
    exact hresolved hname

/-- A rearranged document can be loaded, too. -/
theorem exists_loadDocument (houter : d'.OuterFirst) (hp : Loaded base d headers p) :
    ∃ q, Loading.loadDocument d' base = .ok () q := by
  obtain ⟨ids, headers', htypes⟩ :=
    Loading.exists_mapM_declareType hbase.indexed (h.declarable hp.declarable) houter
  obtain ⟨hdeclared, -, -⟩ := Loading.declared_of_mapM hbase.indexed htypes
  have halike := h.resolvesAlike hbase hp.declared hdeclared
  apply Loading.exists_loadDocument hbase.indexed htypes
  · intro x' hx'
    obtain ⟨t, ht, hrel⟩ := h.symm.exists_entry (fst_mem_of_mem_places hx')
    obtain ⟨id, hx⟩ := exists_place base ht
    obtain ⟨details, hdetails, -⟩ := hp.completed.detailed _ hx
    obtain ⟨events, hresolved, -⟩ :=
      h.exists_resolveDetails hbase hp.declared hdeclared hrel.symm hdetails
    rw [h.relocation_of_isReordered hbase hp.declared hdeclared hx hx' hrel.symm] at hresolved
    exact ⟨_, hresolved⟩
  · obtain ⟨attributes, hresolve, -⟩ := hp.assemblyAttributes
    obtain ⟨r, hr, -⟩ :=
      exists_mapM_of_perm h.assemblyAttributes (mapM_ok_map halike.resolveAttribute hresolve)
    exact ⟨r, hr⟩
  · obtain ⟨invocations, hresolves, -⟩ := hp.invocations
    obtain ⟨r, hr, -⟩ :=
      exists_mapM_of_perm h.invocations (mapM_ok_map halike.resolveInvocation hresolves)
    exact ⟨r, hr⟩

end Document.Rearranges

/-! ## A document in two orders -/

namespace Document

def eventEntry (name : String) : EventEntry := { name := name, delegate := .name "Notice" }

/-- A delegate and a control whose events are of this delegate. -/
def controlEntries (events : List EventEntry) : List TypeEntry :=
  [{ name := "Notice", kind := .delegateType, invoke := some {} },
    { name := "Control", events := events }]

/-- A button that derives from the control, and its edge. -/
def buttonEntries : List TypeEntry :=
  [{ name := "Button", base := some (.name "Control") },
    { name := "Edge", container := some "Button", events := [eventEntry "Drawn"] }]

def callEntry (name : String) : InvocationEntry where
  method := "Events"
  container := some "ObservableEvents.ObservableGeneratorExtensions"
  typeArguments := [.name name]

def listed : Document where
  types := controlEntries [eventEntry "Shown", eventEntry "Hidden"] ++ buttonEntries
  invocations := [callEntry "Button", callEntry "Button+Edge"]

def relisted : Document where
  types := buttonEntries ++ controlEntries [eventEntry "Hidden", eventEntry "Shown"]
  invocations := [callEntry "Button+Edge", callEntry "Button"]

theorem rearranges_relisted : listed.Rearranges relisted where
  types := by
    refine ⟨_, List.perm_append_comm, .cons (.refl _)
      (.cons (.refl _) (.cons (.refl _) (.cons ?_ .nil)))⟩
    exact ⟨rfl, .inr ⟨.swap _ _ _, by decide⟩⟩
  invocations := .swap _ _ _
  assemblyAttributes := .refl _

end Document

end EventWrap
