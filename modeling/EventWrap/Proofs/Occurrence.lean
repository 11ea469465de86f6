import EventWrap.Occurrence
import EventWrap.Sorting
import Mathlib.Data.List.Nodup
import Mathlib.Data.List.Perm.Basic

/-!
# First occurrences and sorting by distinct keys

The first occurrences of a list carry every key once. Lists of distinct keys that are permutations
of each other become equal when they are sorted by key, so that sorting first occurrences forgets
the order in which the keys were met.
-/

namespace EventWrap.Occurrence

variable {α β κ : Type} [DecidableEq κ]

/-! ## First occurrences -/

theorem firsts_sublist (key : α → κ) (seen : List κ) (l : List α) :
    (firsts key seen l).Sublist l := by
  induction l generalizing seen with
  | nil => exact List.Sublist.slnil
  | cons a rest ih =>
    rw [firsts]
    split
    · exact (ih seen).cons a
    · exact (ih (key a :: seen)).cons_cons a

theorem mem_of_mem_firsts {key : α → κ} {seen : List κ} {l : List α} {a : α}
    (h : a ∈ firsts key seen l) :
    a ∈ l := (firsts_sublist key seen l).subset h

/-- The keys of first occurrences are those that occur and were not met before. -/
theorem mem_map_firsts (key : α → κ) (seen : List κ) (l : List α) (k : κ) :
    k ∈ (firsts key seen l).map key ↔ k ∈ l.map key ∧ k ∉ seen := by
  induction l generalizing seen with
  | nil => simp
  | cons a rest ih =>
    rw [firsts]
    split
    · next h =>
      rw [ih seen, List.map_cons, List.mem_cons]
      constructor
      · exact fun hk => ⟨.inr hk.1, hk.2⟩
      · rintro ⟨rfl | hk, hs⟩
        · exact absurd h hs
        · exact ⟨hk, hs⟩
    · next h =>
      rw [List.map_cons, List.mem_cons, ih (key a :: seen), List.map_cons, List.mem_cons,
        List.mem_cons]
      by_cases hk : k = key a
      · subst hk
        simp [h]
      · simp [hk]

theorem nodup_map_firsts (key : α → κ) (seen : List κ) (l : List α) :
    ((firsts key seen l).map key).Nodup := by
  induction l generalizing seen with
  | nil => exact List.nodup_nil
  | cons a rest ih =>
    rw [firsts]
    split
    · exact ih seen
    · rw [List.map_cons, List.nodup_cons, mem_map_firsts]
      exact ⟨fun h => h.2 List.mem_cons_self, ih (key a :: seen)⟩

/-- Only which keys were met counts, not their order. -/
theorem firsts_congr {key : α → κ} {seen seen' : List κ} (h : ∀ k, k ∈ seen ↔ k ∈ seen')
    (l : List α) :
    firsts key seen l = firsts key seen' l := by
  induction l generalizing seen seen' with
  | nil => rfl
  | cons a rest ih =>
    have hcons : ∀ k, k ∈ key a :: seen ↔ k ∈ key a :: seen' := by simp [h]
    rw [firsts, firsts, ih h, ih hcons]
    simp only [h]

theorem firsts_append (key : α → κ) (seen : List κ) (l l' : List α) :
    firsts key seen (l ++ l') = firsts key seen l ++ firsts key (l.map key ++ seen) l' := by
  induction l generalizing seen with
  | nil => rfl
  | cons a rest ih =>
    rw [List.cons_append, firsts, firsts]
    split
    · next h =>
      rw [ih seen]
      congr 1
      apply firsts_congr
      intro k
      simp only [List.map_cons, List.cons_append, List.mem_cons]
      exact ⟨.inr, fun hk => hk.elim (fun e => e ▸ List.mem_append.2 (.inr h)) id⟩
    · next h =>
      rw [ih (key a :: seen), List.cons_append]
      congr 2
      apply firsts_congr
      intro k
      simp only [List.map_cons, List.cons_append, List.mem_cons, List.mem_append]
      exact or_left_comm

/-- First and repeated entries are all there are. -/
theorem firsts_append_repeats_perm (key : α → κ) (seen : List κ) (l : List α) :
    (firsts key seen l ++ repeats key seen l).Perm l := by
  induction l generalizing seen with
  | nil => exact .refl []
  | cons a rest ih =>
    rw [firsts, repeats]
    split
    · exact List.perm_middle.trans ((ih seen).cons a)
    · exact (ih (key a :: seen)).cons a

/-- One more entry is repeated when its key was met. -/
theorem repeats_concat (key : α → κ) (seen : List κ) (l : List α) (a : α) :
    repeats key seen (l ++ [a]) =
      repeats key seen l ++ if key a ∈ l.map key ++ seen then [a] else [] := by
  induction l generalizing seen with
  | nil => simp [repeats]
  | cons b rest ih =>
    rw [List.cons_append, repeats, repeats]
    split
    · next h =>
      have hmet : key a ∈ (b :: rest).map key ++ seen ↔ key a ∈ rest.map key ++ seen := by
        rw [List.map_cons, List.cons_append, List.mem_cons]
        exact or_iff_right_of_imp fun e => e ▸ List.mem_append_right _ h
      simp only [ih, hmet, List.cons_append]
    · have hmet : key a ∈ (b :: rest).map key ++ seen ↔
          key a ∈ rest.map key ++ key b :: seen := List.perm_middle.symm.mem_iff
      simp only [ih, hmet]

theorem firsts_map (key : β → κ) (f : α → β) (seen : List κ) (l : List α) :
    firsts key seen (l.map f) = (firsts (fun a => key (f a)) seen l).map f := by
  induction l generalizing seen with
  | nil => rfl
  | cons a rest ih =>
    rw [List.map_cons, firsts, firsts]
    split
    · exact ih seen
    · rw [List.map_cons, ih (key (f a) :: seen)]

/-- Of entries with distinct keys, those stay whose key was not met before. -/
theorem firsts_eq_filter {key : α → κ} {l : List α} (h : (l.map key).Nodup) (seen : List κ) :
    firsts key seen l = l.filter fun a => decide (key a ∉ seen) := by
  induction l generalizing seen with
  | nil => rfl
  | cons a rest ih =>
    rw [List.map_cons, List.nodup_cons] at h
    rw [firsts, List.filter_cons]
    split
    · next ha => simp [ha, ih h.2]
    · next ha =>
      rw [if_pos (by simp [ha]), ih h.2]
      congr 1
      apply List.filter_congr
      intro b hb
      have hne : key b ≠ key a := fun e => h.1 (e ▸ List.mem_map_of_mem hb)
      simp [hne]

/-- Rearranging entries with distinct keys rearranges the first occurrences. -/
theorem firsts_perm {key : α → κ} {l l' : List α} (hp : l.Perm l') (h : (l.map key).Nodup)
    (seen : List κ) :
    (firsts key seen l).Perm (firsts key seen l') := by
  rw [firsts_eq_filter h, firsts_eq_filter ((hp.map key).nodup_iff.1 h)]
  exact hp.filter _

end EventWrap.Occurrence

/-! ## Orders that cannot be noticed -/

namespace EventWrap.Occurrence

variable {α β κ : Type}

/-- The same entries in an order that does not tell which ones are first: any order where all keys
are distinct, else the same one. -/
def Reordered (key : α → κ) (l l' : List α) : Prop := l = l' ∨ l.Perm l' ∧ (l.map key).Nodup

namespace Reordered

variable {key : α → κ} {l l' : List α}

theorem refl (key : α → κ) (l : List α) : Reordered key l l := .inl rfl

theorem perm (h : Reordered key l l') : l.Perm l' := by
  rcases h with rfl | ⟨hp, -⟩
  · exact .refl l
  · exact hp

theorem symm (h : Reordered key l l') : Reordered key l' l := by
  rcases h with rfl | ⟨hp, hn⟩
  · exact .inl rfl
  · exact .inr ⟨hp.symm, (hp.map key).nodup_iff.1 hn⟩

theorem map {key : β → κ} {f : α → β} (h : Reordered (fun a => key (f a)) l l') :
    Reordered key (l.map f) (l'.map f) := by
  rcases h with rfl | ⟨hp, hn⟩
  · exact .inl rfl
  · refine .inr ⟨hp.map f, ?_⟩
    rw [List.map_map]
    exact hn

theorem firsts [DecidableEq κ] (h : Reordered key l l') (seen : List κ) :
    (firsts key seen l).Perm (firsts key seen l') := by
  rcases h with rfl | ⟨hp, hn⟩
  · exact .refl _
  · exact firsts_perm hp hn seen

end Reordered

/-- Reordering inside the blocks of a list rearranges the first occurrences. -/
theorem firsts_flatten_perm [DecidableEq κ] {key : α → κ} {blocks blocks' : List (List α)}
    (h : List.Forall₂ (Reordered key) blocks blocks') (seen : List κ) :
    (firsts key seen blocks.flatten).Perm (firsts key seen blocks'.flatten) := by
  induction h generalizing seen with
  | nil => exact .refl _
  | @cons block block' rest rest' hblock _ ih =>
    rw [List.flatten_cons, List.flatten_cons, firsts_append, firsts_append]
    have hseen : firsts key (block'.map key ++ seen) rest'.flatten =
        firsts key (block.map key ++ seen) rest'.flatten := by
      apply firsts_congr
      intro k
      simp only [List.mem_append, (hblock.perm.map key).mem_iff]
    rw [hseen]
    exact (hblock.firsts seen).append (ih _)

end EventWrap.Occurrence

namespace EventWrap

variable {α β : Type}

/-! ## Sorting by distinct names -/

theorem sortedBy_perm (name : α → String) (l : List α) : (sortedBy name l).Perm l :=
  List.mergeSort_perm _ _

@[simp] theorem mem_sortedBy {name : α → String} {l : List α} {a : α} :
    a ∈ sortedBy name l ↔ a ∈ l :=
  (sortedBy_perm name l).mem_iff

theorem sortedBy_pairwise_le (name : α → String) (l : List α) :
    (sortedBy name l).Pairwise fun a b => name a ≤ name b := by
  have h := @List.pairwise_mergeSort α (fun a b => decide (name a ≤ name b))
    (fun a b c hab hbc => by
      rw [decide_eq_true_eq] at *
      exact String.le_trans hab hbc)
    (fun a b => by simpa using String.le_total (name a) (name b)) l
  exact h.imp fun hab => of_decide_eq_true hab

/-- Distinct names are sorted strictly. -/
theorem sortedBy_pairwise_lt {name : α → String} {l : List α} (h : (l.map name).Nodup) :
    (sortedBy name l).Pairwise fun a b => name a < name b := by
  have hne : (sortedBy name l).Pairwise fun a b => name a ≠ name b :=
    List.pairwise_map.1 (((sortedBy_perm name l).map name).nodup_iff.2 h)
  refine ((sortedBy_pairwise_le name l).and hne).imp fun {a b} hab => ?_
  exact String.not_le.1 fun hba => hab.2 (String.le_antisymm hab.1 hba)

/-- Lists that are strictly sorted by name are equal when they have the same entries. -/
theorem eq_of_perm_of_sorted {name : α → String} {l l' : List α} (hp : l.Perm l')
    (h : l.Pairwise fun a b => name a < name b) (h' : l'.Pairwise fun a b => name a < name b) :
    l = l' := by
  refine List.Perm.eq_of_pairwise ?_ h h' hp
  intro a b _ _ hab hba
  exact absurd (String.lt_trans hab hba) (String.lt_irrefl _)

/-- Strictly sorted lists are told apart by their entries alone. -/
theorem eq_of_mem_iff_of_sorted {name : α → String} {l l' : List α}
    (h : l.Pairwise fun a b => name a < name b)
    (h' : l'.Pairwise fun a b => name a < name b) (hmem : ∀ a, a ∈ l ↔ a ∈ l') : l = l' := by
  have hnodup : ∀ {l : List α}, l.Pairwise (fun a b => name a < name b) → l.Nodup := by
    refine fun hl => List.Pairwise.imp ?_ hl
    rintro a _ hab rfl
    exact String.lt_irrefl _ hab
  exact eq_of_perm_of_sorted ((List.perm_ext_iff_of_nodup (hnodup h) (hnodup h')).2 hmem) h h'

/-- Sorting by distinct names forgets the order of a list. -/
theorem sortedBy_eq_of_perm {name : α → String} {l l' : List α} (hp : l.Perm l')
    (h : (l.map name).Nodup) :
    sortedBy name l = sortedBy name l' := by
  have hsorted : (sortedBy name l).Perm (sortedBy name l') :=
    calc (sortedBy name l).Perm l := sortedBy_perm name l
      List.Perm _ l' := hp
      List.Perm _ (sortedBy name l') := (sortedBy_perm name l').symm
  have h' : (l'.map name).Nodup := (hp.map name).nodup_iff.1 h
  exact eq_of_perm_of_sorted hsorted (sortedBy_pairwise_lt h) (sortedBy_pairwise_lt h')

theorem sortedBy_map {name : β → String} {f : α → β} {l : List α}
    (h : (l.map fun a => name (f a)).Nodup) :
    sortedBy name (l.map f) = (sortedBy (fun a => name (f a)) l).map f := by
  have hp : (sortedBy name (l.map f)).Perm ((sortedBy (fun a => name (f a)) l).map f) :=
    (sortedBy_perm name _).trans ((sortedBy_perm _ l).map f).symm
  have hmap : ((l.map f).map name).Nodup := by
    rw [List.map_map]
    exact h
  exact eq_of_perm_of_sorted hp (sortedBy_pairwise_lt hmap)
    (List.pairwise_map.2 (sortedBy_pairwise_lt h))

end EventWrap
