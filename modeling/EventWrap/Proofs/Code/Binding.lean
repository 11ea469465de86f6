import EventWrap.Proofs.Wrapper.Subscription

/-!
# Names in code

What a name stands for is decided by the code around it. The parameters of a lambda and those of a
local function are in scope in its body, and a local function is in scope in the whole block that
declares it; an inner declaration hides an outer one of the same name. Every expression inside an
expression has a place with its own scope.
-/

namespace EventWrap.Code

/-! ## Reading names -/

/-- The name that an identifier stands for: an at sign before it only marks it. -/
def identifier (written : String) : String :=
  match written.toList with
  | '@' :: rest => String.ofList rest
  | _ => written

theorem identifier_of_head {written : String} (h : written.toList.head? ≠ some '@') :
    identifier written = written := by
  rw [identifier]
  split
  · next rest hlist => exact absurd (by rw [hlist]; rfl) h
  · rfl

theorem identifier_escape {name : String} (h : name.toList.head? ≠ some '@') :
    identifier (escape name) = name := by
  rw [escape]
  split
  · simp [identifier, String.toList_append]
  · exact identifier_of_head h

/-! ## Scopes -/

/-- What declares a name inside an expression. -/
inductive Binder where
  | lambdaParameter (name : String)
  | formalParameter (formal : Formal)
  | localFunction (declaration : Statement)

/-- Declared names with what they stand for, the innermost first. -/
abbrev Scope := List (String × Binder)

/-- What a written name stands for, when written names are compared by what they are read as. A name
that nothing inside declares stands for something in the code around. -/
def Scope.resolve (read : String → String) (scope : Scope) (name : String) : Option Binder :=
  (scope.find? fun entry => read entry.1 == read name).map (·.2)

theorem Scope.resolve_append (read : String → String) (inner outer : Scope) (name : String) :
    Scope.resolve read (inner ++ outer) name =
      (inner.resolve read name).or (outer.resolve read name) := by
  rw [resolve, List.find?_append, Option.map_or]
  rfl

theorem Scope.resolve_eq_none_iff {read : String → String} {scope : Scope} {name : String} :
    scope.resolve read name = none ↔ ∀ entry ∈ scope, read entry.1 ≠ read name := by
  simp [resolve]

/-! ## Places -/

def lambdaScope (parameters : List String) : Scope :=
  parameters.map fun name => (name, .lambdaParameter name)

def formalScope (formals : List Formal) : Scope := formals.map fun f => (f.name, .formalParameter f)

theorem resolve_formalScope {read : String → String} {formals : List Formal} {name : String}
    (h : ∃ q ∈ formals, read q.name = read name) :
    ∃ q ∈ formals, read q.name = read name ∧
      (formalScope formals).resolve read name = some (.formalParameter q) := by
  cases hfind : (formalScope formals).find? fun entry => read entry.1 == read name with
  | none =>
    obtain ⟨q, hq, hname⟩ := h
    have hentry : (q.name, Binder.formalParameter q) ∈ formalScope formals :=
      List.mem_map_of_mem hq
    exact absurd hname (by simpa using List.find?_eq_none.1 hfind _ hentry)
  | some entry =>
    obtain ⟨q, hq, rfl⟩ := List.mem_map.1 (List.mem_of_find?_eq_some hfind)
    refine ⟨q, hq, by simpa using List.find?_some hfind, ?_⟩
    rw [Scope.resolve, hfind, Option.map_some]

/-- The local functions that a block declares. -/
def blockScope (statements : List Statement) : Scope :=
  statements.filterMap fun
    | .localFunction result name formals body =>
      some (name, .localFunction (.localFunction result name formals body))
    | _ => none

mutual

/-- An expression and all expressions inside it, each with the names in scope at its place. -/
def Expr.places (scope : Scope) : Expr → List (Scope × Expr)
  | .name text => [(scope, .name text)]
  | .string value => [(scope, .string value)]
  | .boolean value => [(scope, .boolean value)]
  | .member target name => (scope, .member target name) :: target.places scope
  | .call target types arguments =>
    (scope, .call target types arguments) :: (target.places scope ++ placesOfAll scope arguments)
  | .create type arguments => (scope, .create type arguments) :: placesOfAll scope arguments
  | .lambda parameters body =>
    (scope, .lambda parameters body) :: body.places (lambdaScope parameters ++ scope)
  | .tuple items => (scope, .tuple items) :: placesOfAll scope items
  | .assign target op value =>
    (scope, .assign target op value) :: (target.places scope ++ value.places scope)
  | .raise exception => (scope, .raise exception) :: exception.places scope

def placesOfAll (scope : Scope) : List Expr → List (Scope × Expr)
  | [] => []
  | e :: rest => e.places scope ++ placesOfAll scope rest

def Statement.places (scope : Scope) : Statement → List (Scope × Expr)
  | .expression e => e.places scope
  | .result e => e.places scope
  | .localFunction _ _ formals body => body.places (formalScope formals ++ scope)

def placesOfStatements (scope : Scope) : List Statement → List (Scope × Expr)
  | [] => []
  | s :: rest => s.places scope ++ placesOfStatements scope rest

def Body.places (scope : Scope) : Body → List (Scope × Expr)
  | .expression e => e.places scope
  | .block statements => placesOfStatements (blockScope statements ++ scope) statements

end

mutual

/-- The places are those of the expressions that walking meets, in the same order. -/
theorem Expr.map_snd_places (scope : Scope) : (e : Expr) → (e.places scope).map (·.2) = e.walk
  | .name _ => rfl
  | .string _ => rfl
  | .boolean _ => rfl
  | .member target _ => by simp [Expr.places, Expr.walk, target.map_snd_places scope]
  | .call target _ arguments => by
    simp [Expr.places, Expr.walk, target.map_snd_places scope, map_snd_placesOfAll scope arguments]
  | .create _ arguments => by
    simp [Expr.places, Expr.walk, map_snd_placesOfAll scope arguments]
  | .lambda parameters body => by
    simp [Expr.places, Expr.walk, body.map_snd_places (lambdaScope parameters ++ scope)]
  | .tuple items => by simp [Expr.places, Expr.walk, map_snd_placesOfAll scope items]
  | .assign target _ value => by
    simp [Expr.places, Expr.walk, target.map_snd_places scope, value.map_snd_places scope]
  | .raise exception => by simp [Expr.places, Expr.walk, exception.map_snd_places scope]

theorem map_snd_placesOfAll (scope : Scope) :
    (es : List Expr) → (placesOfAll scope es).map (·.2) = walkAll es
  | [] => rfl
  | e :: rest => by
    simp [placesOfAll, walkAll, e.map_snd_places scope, map_snd_placesOfAll scope rest]

theorem Statement.map_snd_places (scope : Scope) :
    (s : Statement) → (s.places scope).map (·.2) = s.walk
  | .expression e => e.map_snd_places scope
  | .result e => e.map_snd_places scope
  | .localFunction _ _ formals body => body.map_snd_places (formalScope formals ++ scope)

theorem map_snd_placesOfStatements (scope : Scope) :
    (statements : List Statement) →
      (placesOfStatements scope statements).map (·.2) = walkStatements statements
  | [] => rfl
  | s :: rest => by
    simp [placesOfStatements, walkStatements, s.map_snd_places scope,
      map_snd_placesOfStatements scope rest]

theorem Body.map_snd_places (scope : Scope) : (b : Body) → (b.places scope).map (·.2) = b.walk
  | .expression e => e.map_snd_places scope
  | .block statements => map_snd_placesOfStatements (blockScope statements ++ scope) statements

end

theorem Expr.exists_places_eq_cons (scope : Scope) (e : Expr) :
    ∃ inner, e.places scope = (scope, e) :: inner := by
  cases e <;> exact ⟨_, rfl⟩

section FoundIn

variable {α : Type} (f : Expr → Option α) (scope : Scope)

/-- What is found at the places of an expression, with the names in scope there. -/
def Expr.foundIn (e : Expr) : List (Scope × α) :=
  (e.places scope).filterMap fun place => (f place.2).map (place.1, ·)

def Body.foundIn (b : Body) : List (Scope × α) :=
  (b.places scope).filterMap fun place => (f place.2).map (place.1, ·)

theorem Expr.map_snd_foundIn (e : Expr) : (e.foundIn f scope).map (·.2) = e.found f := by
  rw [foundIn, List.map_filterMap, found, ← map_snd_places scope, List.filterMap_map]
  congr 1
  funext place
  simp [Function.comp_def]

/-- What is found nowhere but at an expression itself is found with the names around it. -/
theorem Expr.foundIn_of_found {e : Expr} (h : e.found f = (f e).toList) :
    e.foundIn f scope = ((f e).map (scope, ·)).toList := by
  obtain ⟨inner, hplaces⟩ := e.exists_places_eq_cons scope
  have hinner : e.foundIn f scope = ((f e).map (scope, ·)).toList ++
      inner.filterMap fun place => (f place.2).map (place.1, ·) := by
    rw [foundIn, hplaces]
    cases hfe : f e <;> simp [hfe]
  have hlength := congrArg List.length (e.map_snd_foundIn f scope)
  rw [h, hinner, List.length_map, List.length_append] at hlength
  have hnone : (inner.filterMap fun place => (f place.2).map (place.1, ·)) = [] := by
    refine List.length_eq_zero_iff.1 ?_
    cases hfe : f e <;> simpa [hfe] using hlength
  rw [hinner, hnone, List.append_nil]

end FoundIn

end EventWrap.Code
