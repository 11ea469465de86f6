import EventWrap.Proofs.Renaming.Basic

/-!
# Mentioned places

The places that stand in references, attributes, declarations and invocations. Renaming replaces
exactly these, so that what stays the same when all places from some one on are moved mentions
earlier places only.
-/

namespace EventWrap

variable (σ : TypeId → TypeId)

/-! ## References -/

namespace TypeRef

mutual

/-- The places that a reference mentions, from left to right. -/
def mentions : TypeRef → List TypeId
  | .named type arguments => type :: mentionsOfAll arguments
  | .parameter _ => []
  | .array element _ => element.mentions
  | .nullable inner => inner.mentions

def mentionsOfAll : List TypeRef → List TypeId
  | [] => []
  | r :: rest => r.mentions ++ mentionsOfAll rest

end

mutual

theorem mentions_rename : ∀ r : TypeRef, (r.rename σ).mentions = r.mentions.map σ
  | .named type arguments => by
    rw [rename, mentions, mentions, mentionsOfAll_renameAll arguments, List.map_cons]
  | .parameter _ => rfl
  | .array element _ => mentions_rename element
  | .nullable inner => mentions_rename inner

theorem mentionsOfAll_renameAll : ∀ refs : List TypeRef,
    mentionsOfAll (renameAll σ refs) = (mentionsOfAll refs).map σ
  | [] => rfl
  | r :: rest => by
    rw [renameAll, mentionsOfAll, mentionsOfAll, mentions_rename r, mentionsOfAll_renameAll rest,
      List.map_append]

end

end TypeRef

/-! ## Parts of declarations -/

def TypeParameter.mentions (q : TypeParameter) : List TypeId := q.bounds.flatMap (·.mentions)

def Parameter.mentions (q : Parameter) : List TypeId := q.type.mentions

def Signature.mentions (s : Signature) : List TypeId :=
  s.result.mentions ++ s.parameters.flatMap (·.mentions)

def Attribute.Argument.mentions : Attribute.Argument → List TypeId
  | .typeOf type => type.mentions
  | _ => []

def Attribute.mentions (a : Attribute) : List TypeId := a.arguments.flatMap (·.mentions)

def EventDeclaration.mentions (e : EventDeclaration) : List TypeId :=
  e.delegate.mentions ++ e.attributes.flatMap (·.mentions)

/-- The places that a declaration mentions, that of the type around it included. -/
def Declaration.mentions (d : Declaration) : List TypeId :=
  d.container.toList ++ d.typeParameters.flatMap (·.mentions) ++
    d.base.toList.flatMap (·.mentions) ++ d.events.flatMap (·.mentions) ++
    d.attributes.flatMap (·.mentions) ++ d.invoke.toList.flatMap (·.mentions)

def Invocation.mentions (i : Invocation) : List TypeId :=
  i.container.toList ++ i.typeArguments.flatMap (·.mentions)

/-- What the renamed entries of a list mention is what the entries mention, renamed. -/
theorem flatMap_map_rename {α : Type} {mentions : α → List TypeId} {rename : α → α}
    (h : ∀ a, mentions (rename a) = (mentions a).map σ) (l : List α) :
    (l.map rename).flatMap mentions = (l.flatMap mentions).map σ := by
  rw [List.flatMap_map, List.map_flatMap]
  exact congrArg (l.flatMap ·) (funext h)

theorem TypeParameter.mentions_rename (q : TypeParameter) :
    (q.rename σ).mentions = q.mentions.map σ :=
  flatMap_map_rename σ (TypeRef.mentions_rename σ) q.bounds

theorem Parameter.mentions_rename (q : Parameter) : (q.rename σ).mentions = q.mentions.map σ :=
  TypeRef.mentions_rename σ q.type

theorem Signature.mentions_rename (s : Signature) : (s.rename σ).mentions = s.mentions.map σ := by
  rw [mentions, mentions, rename, List.map_append, TypeRef.mentions_rename,
    flatMap_map_rename σ (Parameter.mentions_rename σ)]

theorem Attribute.Argument.mentions_rename (a : Attribute.Argument) :
    (a.rename σ).mentions = a.mentions.map σ := by
  cases a with
  | typeOf r => exact TypeRef.mentions_rename σ r
  | text | flag | number | null => rfl

theorem Attribute.mentions_rename (a : Attribute) : (a.rename σ).mentions = a.mentions.map σ :=
  flatMap_map_rename σ (Argument.mentions_rename σ) a.arguments

theorem EventDeclaration.mentions_rename (e : EventDeclaration) :
    (e.rename σ).mentions = e.mentions.map σ := by
  rw [mentions, mentions, rename, List.map_append, TypeRef.mentions_rename,
    flatMap_map_rename σ (Attribute.mentions_rename σ)]

theorem Declaration.mentions_rename (d : Declaration) :
    (d.rename σ).mentions = d.mentions.map σ := by
  simp only [mentions, rename, Option.toList_map, List.map_append,
    flatMap_map_rename σ (TypeParameter.mentions_rename σ),
    flatMap_map_rename σ (TypeRef.mentions_rename σ),
    flatMap_map_rename σ (EventDeclaration.mentions_rename σ),
    flatMap_map_rename σ (Attribute.mentions_rename σ),
    flatMap_map_rename σ (Signature.mentions_rename σ)]

theorem Invocation.mentions_rename (i : Invocation) :
    (i.rename σ).mentions = i.mentions.map σ := by
  simp only [mentions, rename, Option.toList_map, List.map_append,
    flatMap_map_rename σ (TypeRef.mentions_rename σ)]

/-! ## Moved places -/

/-- Moves all places from some one on. -/
def moveFrom (n : Nat) (id : TypeId) : TypeId := if id < n then id else id + 1

theorem moveFrom_of_lt {n : Nat} {id : TypeId} (h : id < n) : moveFrom n id = id := if_pos h

theorem le_moveFrom {n : Nat} {id : TypeId} (h : n ≤ id) : n ≤ moveFrom n id := by
  rw [moveFrom, if_neg (Nat.not_lt.2 h)]
  exact Nat.le_succ_of_le h

/-- Places that stay where they are when all from some one on are moved are earlier ones. -/
theorem lt_of_map_moveFrom {n : Nat} {ids : List TypeId} (h : ids.map (moveFrom n) = ids) :
    ∀ id ∈ ids, id < n := by
  intro id hid
  have hkept : moveFrom n id = id := List.map_inj_left.1 (h.trans (List.map_id ids).symm) id hid
  refine Nat.lt_of_not_le fun hge => ?_
  rw [moveFrom, if_neg (Nat.not_lt.2 hge)] at hkept
  exact Nat.succ_ne_self id hkept

variable {n : Nat}

theorem Declaration.mentions_lt {d : Declaration} (h : d.rename (moveFrom n) = d) :
    ∀ id ∈ d.mentions, id < n :=
  lt_of_map_moveFrom (by rw [← mentions_rename, h])

theorem Attribute.mentions_lt {a : Attribute} (h : a.rename (moveFrom n) = a) :
    ∀ id ∈ a.mentions, id < n :=
  lt_of_map_moveFrom (by rw [← mentions_rename, h])

theorem Invocation.mentions_lt {i : Invocation} (h : i.rename (moveFrom n) = i) :
    ∀ id ∈ i.mentions, id < n :=
  lt_of_map_moveFrom (by rw [← mentions_rename, h])

end EventWrap
