import EventWrap.Files.Path
import Mathlib.Data.String.Basic
import Mathlib.Tactic.Common

/-!
# Components of paths

The components of a path are read off its characters. A name without slashes that is put behind a
directory is the last component, and what stands before it depends on the directory alone.
-/

namespace EventWrap.Path

/-! ## Splitting at slashes -/

open String in
/-- A text is split from some place on: the part `m` of it, after `l`, belongs to the component that
is being read. -/
theorem splitOnAux_slash (l m r : List Char) (acc : List String) :
    splitOnAux (ofList (l ++ m ++ r)) "/" ⟨utf8Len l⟩ ⟨utf8Len l + utf8Len m⟩ 0 acc =
      acc.reverse ++ (List.splitOnPPrepend (· == '/') r m.reverse).map ofList := by
  have hsep : Pos.Raw.get "/" 0 = '/' := by decide
  have hnext : Pos.Raw.next "/" 0 = ⟨1⟩ := by decide
  have hend : Pos.Raw.atEnd "/" ⟨1⟩ = true := by decide
  induction r generalizing l m acc with
  | nil =>
    have hatEnd := (atEnd_of_valid (l ++ m) []).2 rfl
    rw [utf8Len_append] at hatEnd
    rw [splitOnAux.eq_1, if_pos hatEnd, extract_of_valid]
    simp
  | cons c r ih =>
    have hatEnd := atEnd_of_valid (l ++ m) (c :: r)
    have hget := get_of_valid (l ++ m) (c :: r)
    have hstep := next_of_valid (l ++ m) c r
    rw [utf8Len_append] at hatEnd hget hstep
    rw [splitOnAux.eq_1, hsep, hnext, if_neg fun h => List.cons_ne_nil c r (hatEnd.1 h), hget,
      List.headD_cons]
    by_cases hc : c = '/'
    · subst hc
      have hback : Pos.Raw.unoffsetBy ⟨utf8Len l + utf8Len m + '/'.utf8Size⟩ ⟨1⟩ =
          ⟨utf8Len l + utf8Len m⟩ := rfl
      have hslash : utf8Len ['/'] = '/'.utf8Size := rfl
      have hrest := ih (l ++ m ++ ['/']) [] (ofList m :: acc)
      rw [List.append_nil, utf8Len_append, utf8Len_append, hslash, utf8Len_nil, Nat.add_zero,
        List.append_assoc _ ['/'], List.singleton_append] at hrest
      rw [if_pos (beq_self_eq_true _), hstep]
      simp only [hend, if_true, hback, extract_of_valid]
      have hsplit : List.splitOnPPrepend (· == '/') ('/' :: r) m.reverse =
          m.reverse.reverse :: List.splitOnPPrepend (· == '/') r [] :=
        List.splitOnPPrepend_cons_pos rfl
      rw [hrest, hsplit, List.reverse_reverse, List.map_cons, List.reverse_cons,
        List.append_assoc, List.singleton_append]
      rfl
    · have hback : Pos.Raw.unoffsetBy ⟨utf8Len l + utf8Len m⟩ 0 = ⟨utf8Len l + utf8Len m⟩ := rfl
      have hchar : utf8Len [c] = c.utf8Size := Nat.zero_add _
      have hrest := ih l (m ++ [c]) acc
      rw [utf8Len_append, hchar, ← Nat.add_assoc, ← List.append_assoc, List.append_assoc _ [c],
        List.singleton_append, List.reverse_append, List.reverse_singleton,
        List.singleton_append] at hrest
      have hsplit : List.splitOnPPrepend (· == '/') (c :: r) m.reverse =
          List.splitOnPPrepend (· == '/') r (c :: m.reverse) :=
        List.splitOnPPrepend_cons_neg (beq_eq_false_iff_ne.2 hc)
      rw [if_neg (by simpa using hc), hback, hstep, hrest, hsplit]

theorem components_eq (path : String) :
    components path = (path.toList.splitOn '/').map String.ofList := by
  have h := splitOnAux_slash [] [] path.toList []
  rw [List.nil_append, List.nil_append, String.ofList_toList] at h
  exact h

/-- A slash parts the components before it from those after it. -/
theorem components_append_slash (front back : String) :
    components (front ++ "/" ++ back) = components front ++ components back := by
  have hslash : (front ++ "/" ++ back).toList = front.toList ++ '/' :: back.toList := by
    rw [String.toList_append, String.toList_append, List.append_assoc]
    rfl
  rw [components_eq, components_eq, components_eq, hslash, List.splitOn_append_cons_self,
    List.map_append]

theorem components_of_not_mem {name : String} (h : '/' ∉ name.toList) :
    components name = [name] := by
  rw [components_eq, List.splitOn_eq_singleton h, List.map_singleton, String.ofList_toList]

/-! ## Files of a directory -/

/-- What stands before the name of a file in the components of its path, for the files of a
directory. -/
def lead (directory : String) : List String :=
  if directory.isEmpty then []
  else if directory.endsWith "/" then (components directory).dropLast
  else components directory

/-- A directory whose path ends in a slash. -/
theorem exists_eq_of_endsWith {directory : String} (h : directory.endsWith "/") :
    ∃ front, directory = front ++ "/" := by
  obtain ⟨front, hfront⟩ := String.Slice.endsWith_string_iff.1 h
  refine ⟨String.ofList front, String.toList_injective ?_⟩
  rw [String.toList_append, String.toList_ofList]
  simpa using hfront.symm

/-- A name without slashes is the last component of a file of that name. -/
theorem components_join {name : String} (h : '/' ∉ name.toList) (directory : String) :
    components (join directory name) = lead directory ++ [name] := by
  rw [join, lead]
  by_cases hempty : directory.isEmpty
  · rw [String.isEmpty_iff.1 hempty]
    simp [components_of_not_mem h]
  · by_cases hslash : directory.endsWith "/"
    · rw [hslash, Bool.or_true, if_pos rfl, if_neg hempty, if_pos rfl]
      obtain ⟨front, rfl⟩ := exists_eq_of_endsWith hslash
      have hnothing : components "" = [""] := components_of_not_mem (by simp)
      have hfront := components_append_slash front ""
      rw [String.append_empty, hnothing] at hfront
      rw [components_append_slash, components_of_not_mem h, hfront, List.dropLast_concat]
    · rw [Bool.eq_false_iff.2 hempty, Bool.eq_false_iff.2 hslash, Bool.or_false,
        if_neg Bool.false_ne_true, if_neg Bool.false_ne_true, if_neg Bool.false_ne_true,
        components_append_slash, components_of_not_mem h]

/-- Files of one directory with different names have different paths. -/
theorem join_inj {directory name other : String} (h : '/' ∉ name.toList) (h' : '/' ∉ other.toList)
    (heq : join directory name = join directory other) : name = other := by
  have hcomponents := components_join h directory
  rw [heq, components_join h'] at hcomponents
  exact (List.singleton_inj.1 (List.append_cancel_left hcomponents)).symm

end EventWrap.Path
