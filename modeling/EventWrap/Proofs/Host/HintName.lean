import EventWrap.Host.Basic
import EventWrap.Program.Nesting
import EventWrap.Proofs.Text.Lines

/-!
# Accepted hint names

A host takes a hint name for a file under five conditions. Of a name that begins with a letter and
ends as it should, only its characters matter: none may be a path separator, a reserved character or
a control character. This holds of a text that is put together exactly when it holds of its parts.
-/

namespace EventWrap.HintName

variable {name text other separator : String} {texts : List String} {c : Char}

theorem validate_eq_ok_iff : validate name = .ok () ↔
    Text.isBlankText name = false ∧ name.toList.any isSeparator = false ∧
      name.toList.head? ≠ some '.' ∧ name.toList.any isForbidden = false ∧
      endsInCs name.toList = true := by
  unfold validate fault?
  grind

/-! ## Characters -/

/-- A character that the name of a file may not have: a path separator, a reserved character or a
control character. -/
def IsUnfit (c : Char) : Prop :=
  c ∈ ['/', '\\', ':'] ∨ c ∈ ['"', '<', '>', '|', '?', '*'] ∨
    c.toNat < 0x20 ∨ (0x7f ≤ c.toNat ∧ c.toNat ≤ 0x9f)

instance : DecidablePred IsUnfit := fun _ => inferInstanceAs (Decidable (_ ∨ _ ∨ _ ∨ _))

theorem isUnfit_iff : IsUnfit c ↔ isSeparator c = true ∨ isForbidden c = true := by
  simp only [IsUnfit, isSeparator, isForbidden, Text.isControl, List.mem_cons, List.not_mem_nil,
    Bool.or_eq_true, Bool.and_eq_true, decide_eq_true_eq, beq_iff_eq]
  grind

/-- A text that the name of a file may have in it. -/
def IsClean (text : String) : Prop := ∀ c ∈ text.toList, ¬IsUnfit c

instance (text : String) : Decidable (IsClean text) := List.decidableBAll _ _

theorem isClean_iff : IsClean text ↔
    text.toList.any isSeparator = false ∧ text.toList.any isForbidden = false := by
  simp only [IsClean, isUnfit_iff, not_or, Bool.not_eq_true, forall_and, List.any_eq_false]

/-! ## Texts put together -/

@[simp] theorem isClean_append : IsClean (text ++ other) ↔ IsClean text ∧ IsClean other := by
  rw [IsClean, String.toList_append]
  exact List.forall_mem_append

theorem isClean_intercalate (hseparator : IsClean separator) :
    IsClean (separator.intercalate texts) ↔ ∀ text ∈ texts, IsClean text :=
  Text.forall_mem_intercalate hseparator

@[simp] theorem isClean_qualify :
    IsClean (qualify text other) ↔ IsClean text ∧ IsClean other := by
  have hnothing : IsClean "" := by decide
  have hpoint : IsClean "." := by decide
  rw [qualify]
  split
  · next hempty => rw [String.isEmpty_iff.1 hempty, and_iff_right hnothing]
  · rw [isClean_append, isClean_append, and_iff_left hpoint]

/-- A name that begins with neither a blank nor a dot and ends in `.cs` is accepted when all of its
characters may be there. -/
theorem validate_eq_ok_iff_isClean {first : Char} {rest : List Char}
    (hname : name.toList = first :: (rest ++ ['.', 'c', 's']))
    (hfirst : Text.isBlank first = false ∧ first ≠ '.') :
    validate name = .ok () ↔ IsClean name := by
  have hblank : Text.isBlankText name = false := by
    rw [Text.isBlankText, hname, List.all_cons, hfirst.1, Bool.false_and]
  have hpoint : name.toList.head? ≠ some '.' := by
    rw [hname, List.head?_cons]
    exact fun heq => hfirst.2 (Option.some.inj heq)
  have hending : endsInCs name.toList = true := by
    rw [hname, endsInCs, ← List.cons_append, List.reverse_append]
    rfl
  rw [validate_eq_ok_iff, isClean_iff]
  exact ⟨fun h => ⟨h.2.1, h.2.2.2.1⟩, fun h => ⟨hblank, h.1, hpoint, h.2, hending⟩⟩

end EventWrap.HintName
