import EventWrap.Code.Identifier
import Mathlib.Data.List.Nodup

/-!
# Names as written

A reserved word is written with an at sign before it and every other name as it is. No written name
is reserved, and two names are written alike only when one of them is reserved and the other is the
same name with the at sign already there.
-/

namespace EventWrap.Code

theorem reservedWords_lowercase :
    ∀ word ∈ reservedWords, word.toList.head?.all Char.isLower := by decide

/-- A name with anything but a small letter in front is not reserved. -/
theorem isReserved_of_head {name : String} {c : Char} (h : name.toList.head? = some c)
    (hc : c.isLower = false) : isReserved name = false := by
  apply Bool.eq_false_iff.2
  intro hreserved
  have hlower := reservedWords_lowercase name (List.contains_iff_mem.1 hreserved)
  rw [h, Option.all_some, hc] at hlower
  cases hlower

theorem isReserved_marked (name : String) : isReserved ("@" ++ name) = false :=
  isReserved_of_head (c := '@') (by simp) rfl

theorem marked_ne (name : String) : "@" ++ name ≠ name := by
  intro h
  have hlength := congrArg String.length h
  rw [String.length_append] at hlength
  have hmark : "@".length = 1 := rfl
  omega

theorem escape_of_isReserved {name : String} (h : isReserved name) : escape name = "@" ++ name :=
  if_pos h

theorem escape_of_not_isReserved {name : String} (h : isReserved name = false) :
    escape name = name := if_neg (Bool.eq_false_iff.1 h)

/-- What is written for a name is not reserved. -/
theorem isReserved_escape (name : String) : isReserved (escape name) = false := by
  by_cases h : isReserved name
  · rw [escape_of_isReserved h]
    exact isReserved_marked name
  · have hplain : isReserved name = false := Bool.eq_false_iff.2 h
    rw [escape_of_not_isReserved hplain]
    exact hplain

theorem escape_marked (name : String) : escape ("@" ++ name) = "@" ++ name :=
  escape_of_not_isReserved (isReserved_marked name)

/-- An unmarked name that is not reserved is written for itself only. -/
theorem escape_eq_iff_of_unmarked {name plain : String} (hplain : isReserved plain = false)
    (hhead : plain.toList.head? ≠ some '@') : escape name = plain ↔ name = plain := by
  constructor
  · intro h
    by_cases hname : isReserved name
    · rw [escape_of_isReserved hname] at h
      exact absurd (by simp [← h]) hhead
    · rwa [escape_of_not_isReserved (Bool.eq_false_iff.2 hname)] at h
  · intro h
    rw [h]
    exact escape_of_not_isReserved hplain

/-- Two names are written alike when they are the same, or when one is reserved and the other is
what is written for it. -/
theorem escape_eq_escape_iff {a b : String} :
    escape a = escape b ↔
      a = b ∨ (isReserved a ∧ b = "@" ++ a) ∨ (isReserved b ∧ a = "@" ++ b) := by
  constructor
  · intro h
    by_cases ha : isReserved a
    · by_cases hb : isReserved b
      · rw [escape_of_isReserved ha, escape_of_isReserved hb] at h
        exact .inl ((String.append_right_inj "@").1 h)
      · rw [escape_of_isReserved ha, escape_of_not_isReserved (Bool.eq_false_iff.2 hb)] at h
        exact .inr (.inl ⟨ha, h.symm⟩)
    · by_cases hb : isReserved b
      · rw [escape_of_not_isReserved (Bool.eq_false_iff.2 ha), escape_of_isReserved hb] at h
        exact .inr (.inr ⟨hb, h⟩)
      · rw [escape_of_not_isReserved (Bool.eq_false_iff.2 ha),
          escape_of_not_isReserved (Bool.eq_false_iff.2 hb)] at h
        exact .inl h
  · intro h
    rcases h with rfl | ⟨ha, rfl⟩ | ⟨hb, rfl⟩
    · rfl
    · rw [escape_of_isReserved ha, escape_marked]
    · rw [escape_of_isReserved hb, escape_marked]

/-- Distinct names are written differently, unless a reserved word is among them together with its
marked form. -/
theorem nodup_map_escape_iff {names : List String} :
    (names.map escape).Nodup ↔
      names.Nodup ∧ ∀ word ∈ names, isReserved word → "@" ++ word ∉ names := by
  constructor
  · intro h
    refine ⟨h.of_map, fun word hword hreserved hmarked => ?_⟩
    have hsame : escape ("@" ++ word) = escape word :=
      escape_eq_escape_iff.2 (.inr (.inr ⟨hreserved, rfl⟩))
    exact marked_ne word (List.inj_on_of_nodup_map h hmarked hword hsame)
  · intro h
    obtain ⟨hnames, hmarked⟩ := h
    apply hnames.map_on
    intro a ha b hb hsame
    rcases escape_eq_escape_iff.1 hsame with hsame | ⟨hreserved, rfl⟩ | ⟨hreserved, rfl⟩
    · exact hsame
    · exact absurd hb (hmarked a ha hreserved)
    · exact absurd ha (hmarked b hb hreserved)

/-- Identifiers, which hold no at sign, are written differently when they are distinct. -/
theorem nodup_map_escape_iff_of_unmarked {names : List String}
    (h : ∀ name ∈ names, name.toList.head? ≠ some '@') :
    (names.map escape).Nodup ↔ names.Nodup := by
  rw [nodup_map_escape_iff, and_iff_left_iff_imp]
  intro _ word _ _ hmarked
  exact h _ hmarked (by simp)

end EventWrap.Code
