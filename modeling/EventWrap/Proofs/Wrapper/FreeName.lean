import EventWrap.Wrapper.FreeName
import Mathlib.Data.List.Perm.Subperm
import Mathlib.Data.List.Nodup

/-!
# Free names

The free name is the preferred one when it is not taken, and else the first numbered form that is
not. Some number up to how many names are taken is always free, so that the search ends.
-/

namespace EventWrap

variable {base : String} {taken : List String}

/-- The preferred name when it is free, and else the one with the smallest number that is. No number
beyond the number of taken names is needed. -/
inductive IsFirstFree (base : String) (taken : List String) : String → Prop
  | plain (free : base ∉ taken) : IsFirstFree base taken base
  | numbered {n : Nat} (clash : base ∈ taken) (positive : 0 < n) (bounded : n ≤ taken.length)
      (free : base ++ toString n ∉ taken)
      (smallest : ∀ m, 0 < m → m < n → base ++ toString m ∈ taken) :
      IsFirstFree base taken (base ++ toString n)

namespace IsFirstFree

variable {name name' : String}

theorem notMem (h : IsFirstFree base taken name) : name ∉ taken := by
  cases h with
  | plain free => exact free
  | numbered _ _ _ free => exact free

theorem eq_append (h : IsFirstFree base taken name) : ∃ suffix, name = base ++ suffix := by
  cases h with
  | plain => exact ⟨"", String.append_empty.symm⟩
  | numbered => exact ⟨_, rfl⟩

theorem unique (h : IsFirstFree base taken name) (h' : IsFirstFree base taken name') :
    name = name' := by
  cases h with
  | plain free =>
    cases h' with
    | plain => rfl
    | numbered clash => exact absurd clash free
  | @numbered n clash positive _ free smallest =>
    cases h' with
    | plain free => exact absurd clash free
    | @numbered n' _ positive' _ free' smallest' =>
      rcases Nat.lt_trichotomy n n' with hlt | rfl | hlt
      · exact absurd (smallest' n positive hlt) free
      · rfl
      · exact absurd (smallest n' positive' hlt) free'

end IsFirstFree

/-! ## The search -/

/-- A number is read back from its digits. -/
theorem toString_nat_inj {n m : Nat} (h : toString n = toString m) : n = m := by
  have hdigits := congrArg (fun text : String => Nat.ofDigitChars 10 text.toList 0) h
  simpa [Nat.toString_eq_ofList_toDigits, Nat.ofDigitChars_ten_toDigits] using hdigits

/-- The name and its first numbered forms are different names. -/
theorem nodup_base_cons_numbered (base : String) (n : Nat) :
    (base :: (List.range n).map fun m => base ++ toString (m + 1)).Nodup := by
  refine List.nodup_cons.2 ⟨fun hmem => ?_, List.nodup_range.map fun m m' h => ?_⟩
  · obtain ⟨m, -, hm⟩ := List.mem_map.1 hmem
    exact Nat.repr_ne_empty (String.append_eq_left_iff.1 hm)
  · exact Nat.succ.inj (toString_nat_inj ((String.append_right_inj base).1 h))

/-- So many numbers are taken only by as many names. -/
theorem le_length_of_numbered_mem {n : Nat} (clash : base ∈ taken)
    (smaller : ∀ m, 0 < m → m < n → base ++ toString m ∈ taken) : n ≤ taken.length := by
  cases n with
  | zero => exact Nat.zero_le _
  | succ n =>
    have hsubset : (base :: (List.range n).map fun m => base ++ toString (m + 1)) ⊆ taken := by
      refine List.cons_subset.2 ⟨clash, fun name hname => ?_⟩
      obtain ⟨m, hm, rfl⟩ := List.mem_map.1 hname
      exact smaller (m + 1) (Nat.succ_pos m) (Nat.succ_lt_succ (List.mem_range.1 hm))
    have hlength := (List.subperm_of_subset (nodup_base_cons_numbered base n) hsubset).length_le
    simpa using hlength

theorem numbered_mem_of_succ {n : Nat} (h : ∀ k < n, base ++ toString (k + 1) ∈ taken) :
    ∀ m, 0 < m → m < n + 1 → base ++ toString m ∈ taken := by
  intro m hm hlt
  cases m with
  | zero => exact absurd hm (Nat.lt_irrefl 0)
  | succ k => exact h k (Nat.lt_of_succ_lt_succ hlt)

theorem isFirstFree_freeName (base : String) (taken : List String) :
    IsFirstFree base taken (freeName base taken) := by
  rw [freeName]
  split
  · next clash =>
    rw [numberedNames, List.find?_map]
    cases hfind : (List.range (taken.length + 1)).find?
        ((fun name => decide (name ∉ taken)) ∘ fun n => base ++ toString (n + 1)) with
    | none =>
      have smaller := numbered_mem_of_succ (n := taken.length) fun k hk => by
        simpa using List.find?_eq_none.1 hfind k (List.mem_range.2 (Nat.lt_succ_of_lt hk))
      exact absurd (le_length_of_numbered_mem clash smaller) (Nat.not_succ_le_self _)
    | some n =>
      obtain ⟨free, -, hsmaller⟩ := List.find?_range_eq_some.1 hfind
      have smaller := numbered_mem_of_succ fun k hk => by simpa using hsmaller k hk
      exact .numbered clash n.succ_pos (le_length_of_numbered_mem clash smaller)
        (by simpa using free) smaller
  · next free => exact .plain free

example : freeName "obs" ["obs1", "sender", "obs"] = "obs2" := by decide

/-! ## The name found -/

theorem freeName_notMem (base : String) (taken : List String) : freeName base taken ∉ taken :=
  (isFirstFree_freeName base taken).notMem

theorem freeName_eq_append (base : String) (taken : List String) :
    ∃ suffix, freeName base taken = base ++ suffix := (isFirstFree_freeName base taken).eq_append

theorem ne_freeName_of_mem {name : String} (h : name ∈ taken) : name ≠ freeName base taken :=
  fun heq => freeName_notMem base taken (heq ▸ h)

theorem ne_freeName {text : String} (h : ¬ base.toList <+: text.toList) :
    text ≠ freeName base taken := by
  obtain ⟨suffix, hsuffix⟩ := freeName_eq_append base taken
  rintro rfl
  exact h (by simp [hsuffix])

theorem head_freeName (taken : List String) {c : Char} {rest : List Char}
    (hbase : base.toList = c :: rest) : (freeName base taken).toList.head? = some c := by
  obtain ⟨suffix, hsuffix⟩ := freeName_eq_append base taken
  simp [hsuffix, hbase]

/-- The names of observers begin otherwise than those of handlers. -/
theorem freeName_obs_ne_freeName_Handler (taken : List String) :
    freeName "obs" taken ≠ freeName "Handler" taken := by
  intro h
  have hhead : (freeName "obs" taken).toList.head? = some 'o' := head_freeName taken rfl
  rw [h, head_freeName taken (c := 'H') rfl] at hhead
  exact absurd hhead (by decide)

end EventWrap
