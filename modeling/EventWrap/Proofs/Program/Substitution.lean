import EventWrap.Proofs.Program.Applied

/-!
# Laws of substitution

A reference is looked at place by place. Substitution puts an argument where a parameter stands, as
the argument is, and leaves the other places as they were: names of parameters inside an argument
are not looked at. Where there are arguments for all parameters, a second substitution is one in the
arguments, and nothing is mentioned but what the arguments mention. The laws are stated once, for
whatever consists of references, and hold of references and of signatures.
-/

namespace EventWrap

namespace TypeRef

variable {r : TypeRef} {names : List String} {arguments : List TypeRef}

/-! ## Places -/

/-- What a reference consists of. -/
def parts : TypeRef → List TypeRef
  | .named _ arguments => arguments
  | .parameter _ => []
  | .array element _ => [element]
  | .nullable inner => [inner]

/-- What stands at a place, which says the part to go to on each level. -/
def partAt? : List Nat → TypeRef → Option TypeRef
  | [], r => some r
  | i :: place, r => r.parts[i]?.bind (partAt? place)

theorem parts_substitute (h : ∀ name, r ≠ .parameter name) :
    (r.substitute names arguments).parts = r.parts.map (substitute names arguments) := by
  cases r with
  | named type args => exact substituteAll_eq_map names arguments args
  | parameter name => exact absurd rfl (h name)
  | array element rank => rfl
  | nullable inner => rfl

/-- What stands at a place before stands there with the arguments put in. -/
theorem partAt?_substitute {place : List Nat} {part : TypeRef} (h : r.partAt? place = some part) :
    (r.substitute names arguments).partAt? place = some (part.substitute names arguments) := by
  induction place generalizing r with
  | nil =>
    obtain rfl : r = part := Option.some.inj h
    rfl
  | cons i place ih =>
    obtain ⟨inner, hinner, hpart⟩ := Option.bind_eq_some_iff.1 h
    have hparts : ∀ name, r ≠ .parameter name := by
      rintro name rfl
      cases hinner
    rw [partAt?, parts_substitute hparts, List.getElem?_map, hinner]
    exact ih hpart

/-! ## Arguments -/

/-- The argument of a parameter is the one at the first place of its name. -/
theorem argumentFor?_eq (names : List String) (arguments : List TypeRef) (name : String) :
    argumentFor? names arguments name = (names.idxOf? name).bind (arguments[·]?) := by
  induction names generalizing arguments with
  | nil => rfl
  | cons q rest ih =>
    rw [List.idxOf?_cons]
    cases arguments with
    | nil => cases (if (q == name) = true then some 0 else (rest.idxOf? name).map (· + 1)) <;> rfl
    | cons a others =>
      rw [argumentFor?, List.zip_cons_cons, List.lookup_cons]
      by_cases h : name = q
      · subst h
        simp
      · rw [beq_eq_false_iff_ne.2 h, beq_eq_false_iff_ne.2 (Ne.symm h), if_neg Bool.false_ne_true,
          Option.bind_map]
        exact ih others

mutual

/-- A reference mentions after a substitution what is put in, and what is left in place. -/
theorem parameters_substitute (names : List String) (arguments : List TypeRef) :
    (r : TypeRef) → (r.substitute names arguments).parameters = r.parameters.flatMap fun name =>
      ((argumentFor? names arguments name).getD (.parameter name)).parameters
  | .named type args => parametersOfAll_substituteAll names arguments args
  | .parameter name => by rw [substitute, parameters, List.flatMap_singleton]
  | .array element rank => parameters_substitute names arguments element
  | .nullable inner => parameters_substitute names arguments inner

theorem parametersOfAll_substituteAll (names : List String) (arguments : List TypeRef) :
    (refs : List TypeRef) → parametersOfAll (substituteAll names arguments refs) =
      (parametersOfAll refs).flatMap fun name =>
        ((argumentFor? names arguments name).getD (.parameter name)).parameters
  | [] => rfl
  | r :: rest => by
    rw [substituteAll, parametersOfAll, parametersOfAll, List.flatMap_append,
      parameters_substitute names arguments r, parametersOfAll_substituteAll names arguments rest]

end

/-- With an argument for every parameter, what is mentioned is mentioned by an argument. -/
theorem exists_mem_parameters_of_substitute {name : String}
    (hnames : ∀ name ∈ r.parameters, name ∈ names) (hlength : names.length ≤ arguments.length)
    (hname : name ∈ (r.substitute names arguments).parameters) :
    ∃ a ∈ arguments, name ∈ a.parameters := by
  rw [parameters_substitute] at hname
  obtain ⟨replaced, hreplaced, hname⟩ := List.mem_flatMap.1 hname
  obtain ⟨a, ha, hfound⟩ := exists_argumentFor? (hnames replaced hreplaced) hlength
  rw [hfound] at hname
  exact ⟨a, ha, hname⟩

end TypeRef

/-! ## Laws -/

/-- The laws of putting arguments in place of the type parameters in what consists of references. -/
structure SubstitutionLaws {α : Type} (references : α → List TypeRef)
    (substitute : List String → List TypeRef → α → α) : Prop where
  /-- Parameters that stand for themselves change nothing. -/
  own (x : α) (names : List String) : substitute names (names.map .parameter) x = x
  /-- Where a parameter stands there is its argument afterwards, as it is; a parameter without an
  argument stays. -/
  places (x : α) (names : List String) (arguments : List TypeRef) (i : Nat) (place : List Nat)
    (name : String)
    (stands : (references x)[i]?.bind (TypeRef.partAt? place) = some (.parameter name)) :
    (references (substitute names arguments x))[i]?.bind (TypeRef.partAt? place) =
      some (((names.idxOf? name).bind (arguments[·]?)).getD (.parameter name))
  /-- A second substitution is one in the arguments, where all parameters have one. -/
  composes (x : α) (names names' : List String) (arguments arguments' : List TypeRef)
    (all : ∀ r ∈ references x, ∀ name ∈ r.parameters, name ∈ names)
    (supplied : names.length ≤ arguments.length) :
    substitute names' arguments' (substitute names arguments x) =
      substitute names (arguments.map (·.substitute names' arguments')) x
  /-- Nothing is mentioned then but what the arguments mention. -/
  mentions (x : α) (names : List String) (arguments : List TypeRef)
    (all : ∀ r ∈ references x, ∀ name ∈ r.parameters, name ∈ names)
    (supplied : names.length ≤ arguments.length) :
    ∀ r ∈ references (substitute names arguments x), ∀ name ∈ r.parameters,
      ∃ a ∈ arguments, name ∈ a.parameters

/-- A substitution that goes into each reference has the laws that speak of single references. -/
theorem SubstitutionLaws.of_references {α : Type} {references : α → List TypeRef}
    {substitute : List String → List TypeRef → α → α}
    (own : ∀ x names, substitute names (names.map .parameter) x = x)
    (composes : ∀ x names names' arguments arguments',
      (∀ r ∈ references x, ∀ name ∈ r.parameters, name ∈ names) →
      names.length ≤ arguments.length →
      substitute names' arguments' (substitute names arguments x) =
        substitute names (TypeRef.substituteAll names' arguments' arguments) x)
    (each : ∀ x names arguments, references (substitute names arguments x) =
      (references x).map (·.substitute names arguments)) :
    SubstitutionLaws references substitute where
  own := own
  places x names arguments i place name stands := by
    obtain ⟨r, hr, hpart⟩ := Option.bind_eq_some_iff.1 stands
    rw [each, List.getElem?_map, hr, ← TypeRef.argumentFor?_eq]
    exact TypeRef.partAt?_substitute hpart
  composes x names names' arguments arguments' all supplied := by
    rw [← TypeRef.substituteAll_eq_map]
    exact composes x names names' arguments arguments' all supplied
  mentions x names arguments all supplied := by
    rw [each, List.forall_mem_map]
    intro r hr name hname
    exact TypeRef.exists_mem_parameters_of_substitute (all r hr) supplied hname

theorem Signature.substitute_own (s : Signature) (names : List String) :
    s.substitute names (names.map .parameter) = s := by
  have hparameter : ∀ q ∈ s.parameters, q.substitute names (names.map .parameter) = q := by
    intro q _
    rw [Parameter.substitute, TypeRef.substitute_own]
  rw [substitute, TypeRef.substitute_own, List.map_congr_left hparameter, List.map_id']

/-- Substitution obeys its laws, in a reference and throughout a signature. -/
theorem substitution_laws :
    SubstitutionLaws (fun r : TypeRef => [r]) TypeRef.substitute ∧
      SubstitutionLaws Signature.references
        (fun names arguments s => s.substitute names arguments) := by
  constructor
  · apply SubstitutionLaws.of_references
    · exact fun r names => TypeRef.substitute_own names r
    · intro r names names' arguments arguments' all supplied
      exact TypeRef.substitute_substitute supplied r (all r (List.mem_singleton_self r))
    · exact fun _ _ _ => rfl
  · apply SubstitutionLaws.of_references
    · exact Signature.substitute_own
    · intro s names names' arguments arguments' all supplied
      exact Signature.substitute_substitute supplied all
    · intro s names arguments
      exact Signature.references_substitute names arguments s

/-- A pair of a parameter and an array of another one. -/
def swappedPair : TypeRef := .named 0 [.parameter "T", .array (.parameter "U") 1]

/-- Arguments that mention each other's parameters are put in once, also where one is too many. -/
theorem swappedPair_substituted_once :
    let arguments : List TypeRef := [.nullable (.parameter "U"), .parameter "T", .parameter "V"]
    (∀ r ∈ [swappedPair], ∀ name ∈ r.parameters, name ∈ ["T", "U"]) ∧
      swappedPair.partAt? [1, 0] = some (.parameter "U") ∧
      (swappedPair.substitute ["T", "U"] arguments).partAt? [1, 0] = some (.parameter "T") ∧
      (swappedPair.substitute ["T", "U"] arguments).substitute ["U"] [.named 1 []] =
        swappedPair.substitute ["T", "U"]
          [.nullable (.named 1 []), .parameter "T", .parameter "V"] ∧
      ∀ r ∈ [swappedPair.substitute ["T", "U"] arguments], ∀ name ∈ r.parameters,
        ∃ a ∈ arguments, name ∈ a.parameters := by
  intro arguments
  have hall : ∀ r ∈ [swappedPair], ∀ name ∈ r.parameters, name ∈ ["T", "U"] := by decide
  have hsupplied : ["T", "U"].length ≤ arguments.length := by decide
  refine ⟨hall, rfl, ?_, ?_, ?_⟩
  · exact substitution_laws.1.places swappedPair ["T", "U"] arguments 0 [1, 0] "U" rfl
  · exact substitution_laws.1.composes swappedPair ["T", "U"] ["U"] arguments _ hall hsupplied
  · exact substitution_laws.1.mentions swappedPair ["T", "U"] arguments hall hsupplied

end EventWrap
