import EventWrap.Program.Declaration
import Mathlib.Tactic.Common

/-!
# Arguments of type parameters

The argument of a parameter is found by the place of its name, whatever the arguments are. A
declaration seen from its own parameters is the declaration as it was written.
-/

namespace EventWrap

namespace TypeRef

theorem argumentFor?_map (f : TypeRef → TypeRef) (parameters : List String)
    (arguments : List TypeRef) (name : String) :
    argumentFor? parameters (arguments.map f) name =
      (argumentFor? parameters arguments name).map f := by
  induction parameters generalizing arguments with
  | nil => rfl
  | cons q rest ih =>
    cases arguments with
    | nil => rfl
    | cons a others =>
      rw [argumentFor?, argumentFor?, List.map_cons, List.zip_cons_cons, List.zip_cons_cons,
        List.lookup_cons, List.lookup_cons]
      cases name == q with
      | true => rfl
      | false => exact ih others

theorem argumentFor?_own (parameters : List String) (name : String) :
    (argumentFor? parameters (parameters.map .parameter) name).getD (.parameter name) =
      .parameter name := by
  induction parameters with
  | nil => rfl
  | cons q rest ih =>
    rw [argumentFor?, List.map_cons, List.zip_cons_cons, List.lookup_cons]
    by_cases h : name = q
    · subst h
      simp
    · have hq : (name == q) = false := by simpa using h
      rw [hq]
      exact ih

mutual

theorem substitute_own (parameters : List String) :
    (r : TypeRef) → r.substitute parameters (parameters.map .parameter) = r
  | .named type arguments => by rw [substitute, substituteAll_own parameters arguments]
  | .parameter name => by rw [substitute, argumentFor?_own]
  | .array element rank => by rw [substitute, substitute_own parameters element]
  | .nullable inner => by rw [substitute, substitute_own parameters inner]

theorem substituteAll_own (parameters : List String) :
    (refs : List TypeRef) → substituteAll parameters (parameters.map .parameter) refs = refs
  | [] => rfl
  | r :: rest => by
    rw [substituteAll, substitute_own parameters r, substituteAll_own parameters rest]

end

end TypeRef

theorem Declaration.substitute_ownArguments (d : Declaration) (r : TypeRef) :
    r.substitute d.parameterNames d.ownArguments = r := TypeRef.substitute_own _ r

end EventWrap
