import EventWrap.Pass.Metrics
import Mathlib.Algebra.GroupWithZero.Nat
import Mathlib.Tactic.Common

/-!
# Tallies

A tally keeps its names ascending, so that counting a name once more adds one to its total and
leaves the other numbers as they were.
-/

namespace EventWrap.Tally

variable {t : Tally} {name : String} {n : Nat}

def total (t : Tally) : Nat := (t.map (·.2)).sum

def Ascending (t : Tally) : Prop := t.Pairwise fun a b => a.1 < b.1

theorem insert_nil (name : String) (n : Nat) : insert name n [] = [(name, n)] := rfl

theorem insert_cons (name : String) (n : Nat) (entry : String × Nat) (rest : Tally) :
    insert name n (entry :: rest) =
      if name = entry.1 then (name, n) :: rest
      else if name < entry.1 then (name, n) :: entry :: rest
      else entry :: insert name n rest := rfl

theorem mem_insert {entry : String × Nat} (h : entry ∈ t.insert name n) :
    entry = (name, n) ∨ entry ∈ t := by
  induction t with
  | nil => exact .inl (List.mem_singleton.1 h)
  | cons first rest ih =>
    rw [insert_cons] at h
    split at h
    · rcases List.mem_cons.1 h with h | h
      · exact .inl h
      · exact .inr (List.mem_cons_of_mem _ h)
    · split at h
      · rcases List.mem_cons.1 h with h | h
        · exact .inl h
        · exact .inr h
      · rcases List.mem_cons.1 h with rfl | h
        · exact .inr List.mem_cons_self
        · exact (ih h).imp id (List.mem_cons_of_mem _)

theorem Ascending.insert (h : t.Ascending) (name : String) (n : Nat) :
    (t.insert name n).Ascending := by
  induction t with
  | nil => exact List.pairwise_singleton _ _
  | cons first rest ih =>
    obtain ⟨hfirst, hrest⟩ := List.pairwise_cons.1 h
    rw [insert_cons]
    split
    · next heq =>
      refine List.pairwise_cons.2 ⟨fun entry hentry => ?_, hrest⟩
      rw [heq]
      exact hfirst entry hentry
    · split
      · next hlt =>
        refine List.pairwise_cons.2 ⟨fun entry hentry => ?_, h⟩
        rcases List.mem_cons.1 hentry with rfl | hentry
        · exact hlt
        · exact String.lt_trans hlt (hfirst entry hentry)
      · next hne hnlt =>
        refine List.pairwise_cons.2 ⟨fun entry hentry => ?_, ih hrest⟩
        rcases mem_insert hentry with rfl | hentry
        · exact String.not_le.1 fun hle => hne (String.le_antisymm hle (String.not_lt.1 hnlt))
        · exact hfirst entry hentry

/-- A name is not found before the first name of an ascending tally. -/
theorem Ascending.lookup_eq_none (h : t.Ascending) (hlt : ∀ entry ∈ t.head?, name < entry.1) :
    t.lookup name = none := by
  rw [List.lookup_eq_none_iff]
  intro entry hentry
  cases t with
  | nil => cases hentry
  | cons first rest =>
    have hfirst : name < first.1 := hlt first rfl
    have hentry' : name < entry.1 := by
      rcases List.mem_cons.1 hentry with rfl | hentry
      · exact hfirst
      · exact String.lt_trans hfirst ((List.pairwise_cons.1 h).1 entry hentry)
    exact bne_iff_ne.2 fun heq => String.lt_irrefl _ (heq ▸ hentry')

/-- Setting the number of a name replaces what was counted for it. -/
theorem Ascending.total_insert (h : t.Ascending) (name : String) (n : Nat) :
    (t.insert name n).total + (t.lookup name).getD 0 = t.total + n := by
  induction t with
  | nil => simp [insert_nil, total]
  | cons first rest ih =>
    rw [insert_cons]
    split
    · next heq =>
      subst heq
      rw [List.lookup_cons_self]
      simp only [total, List.map_cons, List.sum_cons, Option.getD_some]
      omega
    · next hne =>
      split
      · next hlt =>
        rw [h.lookup_eq_none fun entry hentry => by cases hentry; exact hlt]
        simp only [total, List.map_cons, List.sum_cons, Option.getD_none]
        omega
      · have hrest := ih (List.pairwise_cons.1 h).2
        rw [List.lookup_cons, beq_eq_false_iff_ne.2 hne]
        simp only [total, List.map_cons, List.sum_cons] at hrest ⊢
        omega

theorem Ascending.total_increment (h : t.Ascending) (name : String) :
    (t.increment name).total = t.total + 1 := by
  have hinsert := h.total_insert name ((t.lookup name).getD 0 + 1)
  rw [increment]
  omega

end EventWrap.Tally
