import EventWrap.Code.TypeText
import EventWrap.Program.CoreLibrary
import Mathlib.Data.List.Basic

/-!
# Array types as written

An array type is written as its innermost element type with one rank specifier for every array
behind it. In C# the leftmost specifier belongs to the outermost array, but the specifiers are
written from the innermost array outward. What is read back has the ranks in reverse, so that only
arrays whose ranks are the same in both directions are written as themselves.
-/

namespace EventWrap

namespace TypeRef

/-- The type that nested arrays hold in the end. -/
def innermost : TypeRef → TypeRef
  | .array element _ => element.innermost
  | r => r

/-- The ranks of nested arrays, from the outermost array to the innermost. -/
def ranks : TypeRef → List UInt32
  | .array element rank => rank :: element.ranks
  | _ => []

/-- The dimensions that nested arrays have in code, from the outermost array to the innermost. There
is no array without a dimension, so that rank zero counts as one. -/
def dimensions (r : TypeRef) : List Nat := r.ranks.map fun rank => max rank.toNat 1

/-- Arrays of some ranks over an element type, the outermost rank first. -/
def arraysOver (element : TypeRef) (ranks : List UInt32) : TypeRef :=
  ranks.foldr (fun rank inner => .array inner rank) element

/-- Every reference is arrays of its ranks over its innermost element type. -/
theorem arraysOver_innermost : (r : TypeRef) → r.innermost.arraysOver r.ranks = r
  | .array element rank => by
    calc (TypeRef.array element rank).innermost.arraysOver (rank :: element.ranks)
      _ = TypeRef.array (element.innermost.arraysOver element.ranks) rank := rfl
      _ = TypeRef.array element rank := by rw [arraysOver_innermost element]
  | .named _ _ => rfl
  | .parameter _ => rfl
  | .nullable _ => rfl

theorem ranks_innermost : (r : TypeRef) → r.innermost.ranks = []
  | .array element _ => ranks_innermost element
  | .named _ _ => rfl
  | .parameter _ => rfl
  | .nullable _ => rfl

theorem ranks_arraysOver (element : TypeRef) (ranks : List UInt32) :
    (element.arraysOver ranks).ranks = ranks ++ element.ranks := by
  induction ranks with
  | nil => rfl
  | cons rank rest ih =>
    rw [List.cons_append, ← ih]
    rfl

end TypeRef

namespace Code

/-! ## Reading rank specifiers -/

mutual

/-- The dimensions that a row of rank specifiers stands for, from left to right. -/
def readSpecifiers : List Char → Option (List Nat)
  | [] => some []
  | '[' :: rest => readSpecifier 1 rest
  | _ => none

/-- The rest of a specifier with some dimensions so far, of which every comma adds one. -/
def readSpecifier : Nat → List Char → Option (List Nat)
  | dimensions, ',' :: rest => readSpecifier (dimensions + 1) rest
  | dimensions, ']' :: rest => (readSpecifiers rest).map (dimensions :: ·)
  | _, _ => none

end

theorem readSpecifier_commas (commas dimensions : Nat) (rest : List Char) :
    readSpecifier dimensions (List.replicate commas ',' ++ ']' :: rest) =
      (readSpecifiers rest).map ((dimensions + commas) :: ·) := by
  induction commas generalizing dimensions with
  | zero => rfl
  | succ commas ih =>
    have hsum : dimensions + 1 + commas = dimensions + (commas + 1) := by omega
    rw [List.replicate_succ, List.cons_append, readSpecifier, ih, hsum]

end Code

namespace Program

open Code

variable (p : Program)

/-- A text is read by C# as arrays of some dimensions over an element type: specifiers stand behind
the element type, and the leftmost one belongs to the outermost array. -/
def ReadsAsArrays (text : String) (element : TypeRef) (dimensions : List Nat) : Prop :=
  ∃ specifiers, text = p.typeText element ++ specifiers ∧
    readSpecifiers specifiers.toList = some dimensions

/-! ## Writing rank specifiers -/

/-- A written specifier is read back with the dimensions of its array. -/
theorem readSpecifiers_rankText (rank : UInt32) (rest : List Char) :
    readSpecifiers ((rankText rank).toList ++ rest) =
      (readSpecifiers rest).map (max rank.toNat 1 :: ·) := by
  have hdimensions : 1 + (rank.toNat - 1) = max rank.toNat 1 := by omega
  calc readSpecifiers ((rankText rank).toList ++ rest)
    _ = readSpecifier 1 (List.replicate (rank.toNat - 1) ',' ++ ']' :: rest) := by
      simp [rankText, readSpecifiers]
    _ = (readSpecifiers rest).map (max rank.toNat 1 :: ·) := by
      rw [readSpecifier_commas, hdimensions]

theorem readSpecifiers_join (ranks : List UInt32) :
    readSpecifiers (String.join (ranks.map rankText)).toList =
      some (ranks.map fun rank => max rank.toNat 1) := by
  induction ranks with
  | nil => rfl
  | cons rank rest ih =>
    rw [String.toList_join] at ih ⊢
    rw [List.map_cons, List.flatMap_cons, readSpecifiers_rankText, ih]
    rfl

/-- Behind the innermost element type stand the specifiers of all arrays, the innermost one first. -/
theorem typeText_eq_innermost_append : (r : TypeRef) →
    p.typeText r = p.typeText r.innermost ++ String.join (r.ranks.reverse.map rankText)
  | .array element rank => by
    calc p.typeText (.array element rank)
      _ = p.typeText element ++ rankText rank := rfl
      _ = p.typeText element.innermost ++
            (String.join (element.ranks.reverse.map rankText) ++ rankText rank) := by
        rw [typeText_eq_innermost_append element, String.append_assoc]
      _ = p.typeText element.innermost ++
            String.join ((rank :: element.ranks).reverse.map rankText) := by
        simp
  | .named _ _ => by simp [TypeRef.innermost, TypeRef.ranks]
  | .parameter _ => by simp [TypeRef.innermost, TypeRef.ranks]
  | .nullable _ => by simp [TypeRef.innermost, TypeRef.ranks]

/-- The text of nested arrays can be read in one way only, with the dimensions in reverse. -/
theorem readsAsArrays_typeText_iff (r : TypeRef) (dimensions : List Nat) :
    p.ReadsAsArrays (p.typeText r) r.innermost dimensions ↔ dimensions = r.dimensions.reverse := by
  have hread : readSpecifiers (String.join (r.ranks.reverse.map rankText)).toList =
      some r.dimensions.reverse := by
    rw [readSpecifiers_join, List.map_reverse]
    rfl
  constructor
  · rintro ⟨specifiers, htext, hspecifiers⟩
    rw [typeText_eq_innermost_append] at htext
    obtain rfl := (String.append_right_inj _).1 htext
    exact Option.some.inj (hspecifiers.symm.trans hread)
  · rintro rfl
    exact ⟨_, p.typeText_eq_innermost_append r, hread⟩

/-- Every reference is nested arrays over an innermost type, possibly none. What C# reads in its
text are arrays over the same type with the ranks in reverse, and nothing else. So a type is read
back as itself exactly when the dimensions of its arrays are the same in both directions. -/
theorem typeText_reads_back_iff (r : TypeRef) :
    r.innermost.arraysOver r.ranks = r ∧
    (∀ dimensions, p.ReadsAsArrays (p.typeText r) r.innermost dimensions ↔
      dimensions = (r.innermost.arraysOver r.ranks.reverse).dimensions) ∧
    (p.ReadsAsArrays (p.typeText r) r.innermost r.dimensions ↔
      r.dimensions.reverse = r.dimensions) := by
  have hreverse : (r.innermost.arraysOver r.ranks.reverse).dimensions = r.dimensions.reverse := by
    rw [TypeRef.dimensions, TypeRef.ranks_arraysOver, TypeRef.ranks_innermost, List.append_nil,
      List.map_reverse]
    rfl
  refine ⟨TypeRef.arraysOver_innermost r, fun dimensions => ?_, ?_⟩
  · rw [hreverse]
    exact p.readsAsArrays_typeText_iff r dimensions
  · rw [readsAsArrays_typeText_iff]
    exact eq_comm

/-- A plane of rows of numbers is written as a row of planes. -/
theorem planeOfRows_not_read_back :
    let plane : TypeRef := .array (.array (.named CoreLibrary.places.int32 []) 1) 2
    plane.dimensions = [2, 1] ∧ withCoreLibrary.typeText plane = "int[][,]" ∧
    ¬ withCoreLibrary.ReadsAsArrays "int[][,]" (.named CoreLibrary.places.int32 []) [2, 1] := by
  intro plane
  have htext : withCoreLibrary.typeText plane = "int[][,]" := by decide
  refine ⟨by decide, htext, fun hread => ?_⟩
  rw [← htext] at hread
  have hreverse := (withCoreLibrary.readsAsArrays_typeText_iff plane [2, 1]).1 hread
  exact absurd hreverse (by decide)

end Program

end EventWrap
