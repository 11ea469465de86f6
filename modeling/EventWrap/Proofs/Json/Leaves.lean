import EventWrap.Json.Reader
import EventWrap.Json.Writer
import Mathlib.Tactic.Common

/-!
# Written strings and integers

A string that was written is read back character by character, whichever escapes were chosen for
it. A written integer is read back where no character follows it that would continue a number.
-/

namespace EventWrap.Json

/-! ## Strings -/

theorem hexValue_hexDigit : ∀ n < 16, hexValue (hexDigit n) = some n := by decide

/-- What a written character is read as: control characters without an escape of their own are
given by their numbers. -/
def pieceOf (c : Char) : Piece :=
  if c.toNat < 0x20 ∧ c ∉ ['\x08', '\x0c', '\n', '\r', '\t'] then .unit c.toNat else .char c

theorem readPieces_escapeChar (c : Char) (rest : List Char) :
    readPieces (escapeChar c ++ rest) = (readPieces rest).map fun p => (pieceOf c :: p.1, p.2) := by
  have hbind : ∀ piece : Piece, ((readPieces rest).bind fun p => some (piece :: p.1, p.2)) =
      (readPieces rest).map fun p => (piece :: p.1, p.2) := fun piece =>
    Option.map_eq_bind.symm
  by_cases hquote : c = '"'
  · subst hquote
    exact hbind _
  by_cases hbackslash : c = '\\'
  · subst hbackslash
    exact hbind _
  by_cases hshort : c ∈ ['\x08', '\x0c', '\n', '\r', '\t']
  · simp only [List.mem_cons, List.not_mem_nil, or_false] at hshort
    rcases hshort with rfl | rfl | rfl | rfl | rfl <;> exact hbind _
  simp only [List.mem_cons, List.not_mem_nil, or_false, not_or] at hshort
  obtain ⟨hb, hf, hn, hr, ht⟩ := hshort
  by_cases hcontrol : c.toNat < 0x20
  · have hhigh := hexValue_hexDigit (c.toNat / 16) (by omega)
    have hlow := hexValue_hexDigit (c.toNat % 16) (by omega)
    have hzero : hexValue '0' = some 0 := rfl
    have hvalue : ((0 * 16 + 0) * 16 + c.toNat / 16) * 16 + c.toNat % 16 = c.toNat := by omega
    have hescape : escapeChar c = ['\\', 'u', '0', '0', hexDigit (c.toNat / 16),
        hexDigit (c.toNat % 16)] := by
      simp only [escapeChar, hquote, hbackslash, hb, hf, hn, hr, ht, hcontrol, ↓reduceIte]
    have hpiece : pieceOf c = .unit c.toNat := by simp [pieceOf, hcontrol, hb, hf, hn, hr, ht]
    rw [hescape, hpiece, ← hbind]
    simp only [List.cons_append, List.nil_append, readPieces, hzero, hhigh, hlow,
      Option.bind_eq_bind, Option.bind_some, hvalue]
    rfl
  · have hescape : escapeChar c = [c] := by
      simp only [escapeChar, hquote, hbackslash, hb, hf, hn, hr, ht, hcontrol, ↓reduceIte]
    have hpiece : pieceOf c = .char c := by simp [pieceOf, hcontrol]
    rw [hescape, hpiece, ← hbind, List.singleton_append, readPieces]
    · simp only [hbackslash, hcontrol, or_self, ↓reduceIte]
      rfl
    all_goals simp [hquote, hbackslash]

theorem readPieces_flatMap_escapeChar (cs rest : List Char) :
    readPieces (cs.flatMap escapeChar ++ '"' :: rest) = some (cs.map pieceOf, rest) := by
  induction cs with
  | nil => rfl
  | cons c cs ih =>
    rw [List.flatMap_cons, List.append_assoc, readPieces_escapeChar, ih]
    rfl

theorem joinPieces_cons_pieceOf (c : Char) (pieces : List Piece) :
    joinPieces (pieceOf c :: pieces) = (joinPieces pieces).map (c :: ·) := by
  rw [pieceOf]
  split
  · next h =>
    -- a control character is no surrogate
    have hlow : c.toNat < 0xD800 ∨ 0xE000 ≤ c.toNat := .inl (by omega)
    rcases pieces with _ | ⟨_ | _, rest⟩ <;> simp [joinPieces, hlow, Char.ofNat_toNat]
  · rw [joinPieces]

theorem joinPieces_map_pieceOf (cs : List Char) : joinPieces (cs.map pieceOf) = some cs := by
  induction cs with
  | nil => rfl
  | cons c cs ih =>
    rw [List.map_cons, joinPieces_cons_pieceOf, ih]
    rfl

/-- A string is read back from after its opening quote. -/
theorem readString_written (s : String) (rest : List Char) :
    readString (s.toList.flatMap escapeChar ++ '"' :: rest) = some (some s, rest) := by
  rw [readString, readPieces_flatMap_escapeChar]
  simp [joinPieces_map_pieceOf]

/-! ## Integers -/

/-- Nothing that continues a number. -/
def EndsNumber (rest : List Char) : Prop :=
  ∀ c ∈ rest.head?, c.isDigit = false ∧ c ≠ '.' ∧ c ≠ 'e' ∧ c ≠ 'E'

/-- What a written number may start with. -/
def StartsNumber (c : Char) : Prop := c.isDigit = true ∨ c = '-'

instance (c : Char) : Decidable (StartsNumber c) := inferInstanceAs (Decidable (_ ∨ _))

theorem StartsNumber.ne {c d : Char} (hc : StartsNumber c) (hd : ¬ StartsNumber d) : c ≠ d :=
  fun h => hd (h ▸ hc)

theorem StartsNumber.isBlank {c : Char} (hc : StartsNumber c) : isBlank c = false := by
  simp [Json.isBlank, hc.ne (d := ' ') (by decide), hc.ne (d := '\n') (by decide),
    hc.ne (d := '\t') (by decide), hc.ne (d := '\r') (by decide)]

theorem exists_toDigits (n : Nat) :
    ∃ c digits, Nat.toDigits 10 n = c :: digits ∧ c.isDigit = true := by
  cases htext : Nat.toDigits 10 n with
  | nil => exact absurd htext Nat.toDigits_ne_nil
  | cons c digits =>
    have hmem : c ∈ Nat.toDigits 10 n := htext ▸ List.mem_cons_self
    exact ⟨c, digits, rfl, Nat.isDigit_of_mem_toDigits (by decide) (by decide) hmem⟩

theorem exists_writeInt (n : Int) : ∃ c chars, writeInt n = c :: chars ∧ StartsNumber c := by
  cases n with
  | ofNat n =>
    obtain ⟨c, digits, htext, hc⟩ := exists_toDigits n
    exact ⟨c, digits, htext, .inl hc⟩
  | negSucc n => exact ⟨'-', _, rfl, .inr rfl⟩

theorem spanDigits_append {digits rest : List Char} (hdigits : ∀ c ∈ digits, c.isDigit = true)
    (hrest : EndsNumber rest) : spanDigits (digits ++ rest) = (digits, rest) := by
  induction digits with
  | nil =>
    cases rest with
    | nil => rfl
    | cons c rest => simp [spanDigits, (hrest c rfl).1]
  | cons c digits ih =>
    have hc : c.isDigit = true := hdigits c List.mem_cons_self
    rw [List.cons_append, spanDigits, if_pos hc,
      ih fun d hd => hdigits d (List.mem_cons_of_mem _ hd)]

/-- Only zero is written with a zero in front. -/
theorem toDigits_ne_zero_cons {n : Nat} (hn : n ≠ 0) (rest : List Char) :
    Nat.toDigits 10 n ≠ '0' :: rest := by
  induction n using Nat.strongRecOn generalizing rest with
  | ind n ih =>
    intro h
    by_cases hlt : n < 10
    · rw [Nat.toDigits_of_lt_base hlt] at h
      exact hn (Nat.digitChar_eq_zero.1 (List.cons.inj h).1)
    · rw [Nat.toDigits_of_base_le (by decide) (Nat.le_of_not_lt hlt)] at h
      cases hfront : Nat.toDigits 10 (n / 10) with
      | nil => exact Nat.toDigits_ne_nil hfront
      | cons c front =>
        rw [hfront] at h
        obtain ⟨rfl, -⟩ := List.cons.inj h
        exact ih (n / 10) (by omega) (by omega) front hfront

theorem readWhole_toDigits {rest : List Char} (hrest : EndsNumber rest) (n : Nat) :
    readWhole (Nat.toDigits 10 n ++ rest) = some (Nat.toDigits 10 n, rest) := by
  have hdigits : ∀ c ∈ Nat.toDigits 10 n, c.isDigit = true := fun c hc =>
    Nat.isDigit_of_mem_toDigits (by decide) (by decide) hc
  rw [readWhole, spanDigits_append hdigits hrest]
  by_cases hn : n = 0
  · subst hn
    rfl
  · have hlead := toDigits_ne_zero_cons hn
    cases htext : Nat.toDigits 10 n with
    | nil => exact absurd htext Nat.toDigits_ne_nil
    | cons c digits =>
      rw [htext] at hlead
      have hc : c ≠ '0' := by
        rintro rfl
        exact hlead digits rfl
      split
      · next h => cases h
      · next h =>
        cases h
        exact absurd rfl hc
      · next h =>
        cases h
        exact absurd rfl hc
      · next h =>
        cases h
        rfl

theorem readFraction_of_ends {rest : List Char} (hrest : EndsNumber rest) :
    readFraction rest = some ([], rest) := by
  cases rest with
  | nil => rfl
  | cons c rest =>
    rw [readFraction]
    rintro after h
    exact (hrest c rfl).2.1 (List.cons.inj h).1

theorem readExponent_of_ends {rest : List Char} (hrest : EndsNumber rest) :
    readExponent rest = some (none, rest) := by
  cases rest with
  | nil => rfl
  | cons c rest =>
    obtain ⟨-, -, he, hE⟩ := hrest c rfl
    unfold readExponent
    exact if_neg (not_or_intro he hE)

theorem readMagnitude_toDigits {rest : List Char} (hrest : EndsNumber rest) {negative : Bool}
    {n : Nat} (hn : negative = true → n ≠ 0) :
    readMagnitude negative (Nat.toDigits 10 n ++ rest) =
      some (.int (if negative then -(n : Int) else n), rest) := by
  have hvalue : ofDigits (Nat.toDigits 10 n) = n := Nat.ofDigitChars_ten_toDigits
  have hzero : ¬ (negative = true ∧ n = 0) := fun h => hn h.1 h.2
  rw [readMagnitude, readWhole_toDigits hrest]
  simp only [Option.bind_eq_bind, Option.bind_some, readFraction_of_ends hrest,
    readExponent_of_ends hrest, hvalue, if_neg hzero]
  rfl

/-- An integer is read back where its digits end. -/
theorem readNumber_writeInt {rest : List Char} (hrest : EndsNumber rest) (n : Int) :
    readNumber (writeInt n ++ rest) = some (.int n, rest) := by
  cases n with
  | negSucc n =>
    have hread : readMagnitude true (Nat.toDigits 10 (n + 1) ++ rest) = _ :=
      readMagnitude_toDigits hrest fun _ => Nat.succ_ne_zero n
    exact hread
  | ofNat n =>
    have hread : readMagnitude false (Nat.toDigits 10 n ++ rest) = _ :=
      readMagnitude_toDigits hrest nofun
    obtain ⟨c, digits, htext, hc⟩ := exists_toDigits n
    rw [htext] at hread
    rw [writeInt, htext, List.cons_append, readNumber]
    · exact hread
    · -- the first character is a digit, and not a sign
      rintro after h
      rw [(List.cons.inj h).1] at hc
      exact absurd hc (by decide)

end EventWrap.Json
