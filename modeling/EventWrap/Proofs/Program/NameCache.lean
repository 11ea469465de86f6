import EventWrap.Program.NameCache
import EventWrap.Proofs.Document.Scoping

/-!
# Remembered names are the names

A qualified name goes on from that of the type around. Whatever has been asked for before, a name
that is looked up or made is this name, and so is every name that is kept on the way, for the type
itself and for the types around it. What is kept stays.
-/

namespace EventWrap

/-- The qualified name of a nested type is that of the type around it, a point and its own. -/
theorem Program.qualifiedName_eq {p : Program} (h : p.OuterFirst) (id : TypeId) :
    p.qualifiedName id = match (p.declaration id).container with
      | some outer => p.qualifiedName outer ++ "." ++ (p.declaration id).name
      | none => qualify (p.declaration id).namespaceName (p.declaration id).name := by
  rw [qualifiedName, nesting_eq h, nestingOf]
  cases (p.declaration id).container with
  | none => rfl
  | some outer => exact qualify_path_concat "." (·.name) (nesting_ne_nil p outer) _

namespace NameCache

variable {p : Program} {cache : NameCache} {id : TypeId} {levels : Nat}

/-- Every name that is kept is the qualified name of its type. -/
def Sound (p : Program) (cache : NameCache) : Prop :=
  ∀ entry ∈ cache, entry.2 = p.qualifiedName entry.1

theorem Sound.nil (p : Program) : Sound p [] := List.forall_mem_nil _

theorem Sound.keep (h : Sound p cache) (id : TypeId) :
    Sound p ((id, p.qualifiedName id) :: cache) :=
  List.forall_mem_cons.2 ⟨rfl, h⟩

theorem Sound.eq_of_lookup (h : Sound p cache) {name : String}
    (hname : cache.lookup id = some name) : name = p.qualifiedName id := by
  obtain ⟨before, after, hcache, -⟩ := List.lookup_eq_some_iff.1 hname
  apply h (id, name)
  rw [hcache]
  exact List.mem_append_right before List.mem_cons_self

/-- A type was asked for: its name is the answer, and what is kept is right and not less. -/
structure Told (p : Program) (cache : NameCache) (id : TypeId) (told : String × NameCache) :
    Prop where
  name : told.1 = p.qualifiedName id
  sound : Sound p told.2
  kept : cache <:+ told.2

/-- A name that is made from the one around is kept behind what was kept for that one. -/
theorem Told.keep {told : String × NameCache} {outer : TypeId} (h : Told p cache outer told)
    {name : String} (hname : name = p.qualifiedName id) :
    Told p cache id (name, (id, name) :: told.2) := by
  subst hname
  exact ⟨rfl, h.sound.keep id, h.kept.trans (List.suffix_cons _ _)⟩

/-- The levels go down with the places of the types around, so that they never run out. -/
theorem told_nameWithin (h : p.OuterFirst) (hlevels : id < levels) (hsound : Sound p cache) :
    Told p cache id (nameWithin p levels id cache) := by
  induction levels generalizing id cache with
  | zero => cases hlevels
  | succ levels ih =>
    cases hlookup : cache.lookup id with
    | some name =>
      simp only [nameWithin, hlookup]
      exact ⟨hsound.eq_of_lookup hlookup, hsound, List.suffix_rfl⟩
    | none =>
      have hname := Program.qualifiedName_eq h id
      cases hc : (p.declaration id).container with
      | some outer =>
        have hlt : outer < levels :=
          Nat.lt_of_lt_of_le (h id outer hc) (Nat.le_of_lt_succ hlevels)
        have houter := ih hlt hsound
        simp only [nameWithin, hlookup, hc] at hname ⊢
        apply houter.keep
        rw [houter.name, hname]
      | none =>
        simp only [nameWithin, hlookup, hc] at hname ⊢
        rw [← hname]
        exact ⟨rfl, hsound.keep id, List.suffix_cons _ _⟩

theorem told_qualifiedName (h : p.OuterFirst) (hsound : Sound p cache) (id : TypeId) :
    Told p cache id (qualifiedName p id cache) :=
  told_nameWithin h (Nat.lt_succ_self id) hsound

/-! ## Several names -/

theorem qualifiedNames_cons (p : Program) (id : TypeId) (rest : List TypeId) (cache : NameCache) :
    qualifiedNames p (id :: rest) cache =
      ((qualifiedName p id cache).1 :: (qualifiedNames p rest (qualifiedName p id cache).2).1,
        (qualifiedNames p rest (qualifiedName p id cache).2).2) := rfl

/-- What is asked for later starts from what is kept by then. -/
theorem qualifiedNames_append (p : Program) (ids later : List TypeId) (cache : NameCache) :
    qualifiedNames p (ids ++ later) cache =
      ((qualifiedNames p ids cache).1 ++
          (qualifiedNames p later (qualifiedNames p ids cache).2).1,
        (qualifiedNames p later (qualifiedNames p ids cache).2).2) := by
  induction ids generalizing cache with
  | nil => rfl
  | cons id rest ih =>
    rw [List.cons_append, qualifiedNames_cons, qualifiedNames_cons, ih]
    rfl

theorem told_qualifiedNames (h : p.OuterFirst) (hsound : Sound p cache) (ids : List TypeId) :
    (qualifiedNames p ids cache).1 = ids.map p.qualifiedName ∧
      Sound p (qualifiedNames p ids cache).2 ∧ cache <:+ (qualifiedNames p ids cache).2 := by
  induction ids generalizing cache with
  | nil => exact ⟨rfl, hsound, List.suffix_rfl⟩
  | cons id rest ih =>
    have htold := told_qualifiedName h hsound id
    obtain ⟨hnames, hsound', hkept⟩ := ih htold.sound
    rw [qualifiedNames_cons, hnames, htold.name]
    exact ⟨rfl, hsound', htold.kept.trans hkept⟩

/-- Whatever is asked for, and in whatever order, the answers are the qualified names, which go on
from those of the types around, and every name ever kept is the name of its type: what is kept by
the end is right, and more questions only add to it. -/
theorem remembered_names_exact (h : p.Reached) (ids : List TypeId) :
    (∀ id, p.qualifiedName id = match (p.declaration id).container with
      | some outer => p.qualifiedName outer ++ "." ++ (p.declaration id).name
      | none => qualify (p.declaration id).namespaceName (p.declaration id).name) ∧
    (qualifiedNames p ids []).1 = ids.map p.qualifiedName ∧
    (∀ entry ∈ (qualifiedNames p ids []).2, entry.2 = p.qualifiedName entry.1) ∧
    ∀ later, (qualifiedNames p ids []).2 <:+ (qualifiedNames p (ids ++ later) []).2 := by
  have houter := h.indexed.outerFirst
  obtain ⟨hnames, hsound, -⟩ := told_qualifiedNames houter (Sound.nil p) ids
  refine ⟨Program.qualifiedName_eq houter, hnames, hsound, fun later => ?_⟩
  rw [qualifiedNames_append]
  exact (told_qualifiedNames houter hsound later).2.2

/-- A nested type is asked for before the type around it, and once more after it. -/
theorem withNested_names_remembered :
    Program.withNested.Reached ∧
      (qualifiedNames Program.withNested [31, 30, 31] []).1 =
        ["Sample.Outer.Inner", "Sample.Outer", "Sample.Outer.Inner"] ∧
      (qualifiedNames Program.withNested [31, 30, 31] []).2 =
        [(31, "Sample.Outer.Inner"), (30, "Sample.Outer")] ∧
      ∀ entry ∈ (qualifiedNames Program.withNested [31, 30, 31] []).2,
        entry.2 = Program.withNested.qualifiedName entry.1 := by
  have hreached : Program.withNested.Reached :=
    .step Program.reached_withOuter fun _ _ hop _ => nomatch hop
  obtain ⟨-, hnames, hkept, -⟩ := remembered_names_exact hreached [31, 30, 31]
  refine ⟨hreached, ?_, by decide, hkept⟩
  rw [hnames]
  decide

end NameCache

end EventWrap
