import EventWrap.Proofs.Json.Decoding
import Mathlib.Data.Option.Basic

/-!
# References and arguments without tags

The forms of a reference are told apart by their fields alone: no form is taken for an earlier one,
so that a reference keeps its form through a value, and an attribute argument its kind.
-/

namespace EventWrap.Document

open Json Json.Decoder

/-! ## Encodings -/

theorem Reference.toJsonAll_eq_map (arguments : List Reference) :
    Reference.toJsonAll arguments = arguments.map Reference.toJson := by
  induction arguments with
  | nil => rfl
  | cons r rest ih => rw [Reference.toJsonAll, ih, List.map_cons]

theorem Reference.toJson_ne_null (r : Reference) : r.toJson ≠ .null := by
  cases r <;> rw [Reference.toJson] <;> exact nofun

mutual

theorem Reference.plain_toJson : (r : Reference) → r.toJson.plain = true
  | .name _ => by rw [Reference.toJson, text, plain, Option.isSome_some]
  | .generic definition arguments => by
    have harguments := Reference.plain_toJsonAll arguments
    simp [Reference.toJson, Json.record, plain, plainFields, text, harguments]
  | .array element rank => by
    have helement := Reference.plain_toJson element
    have hrank := plain_nat rank
    simp [Reference.toJson, Json.record, plain, plainFields, helement, hrank]
  | .nullable inner => by
    have hinner := Reference.plain_toJson inner
    simp [Reference.toJson, Json.record, plain, plainFields, hinner]

theorem Reference.plain_toJsonAll : (arguments : List Reference) →
    plainItems (Reference.toJsonAll arguments) = true
  | [] => by rw [Reference.toJsonAll, plainItems]
  | r :: rest => by
    rw [Reference.toJsonAll, plainItems, Reference.plain_toJson r,
      Reference.plain_toJsonAll rest, Bool.and_true]

end

/-! ## Decoding what was encoded -/

section Forms

theorem Reference.ofLevels?_str (levels : Nat) (t : Option String) :
    Reference.ofLevels? levels (.str t) = t.map .name := by
  cases levels <;> rfl

/-- An object is decoded to the first of the forms with parts that its fields fit. -/
theorem Reference.ofLevels?_succ_obj (levels : Nat) (fields : List (Option String × Json)) :
    Reference.ofLevels? (levels + 1) (.obj fields) =
      ((match fieldsOf ["name", "arguments"] fields with
        | some [some (.str (some definition)), some (.arr items)] =>
          (items.mapM (Reference.ofLevels? levels)).map (.generic definition)
        | _ => none) <|>
      (match fieldsOf ["array", "rank"] fields with
        | some [some element, rank] => do
          return .array (← Reference.ofLevels? levels element) (← withDefault 1 word32 0 rank)
        | _ => none) <|>
      match fieldsOf ["nullable"] fields with
        | some [some inner] => (Reference.ofLevels? levels inner).map .nullable
        | _ => none) := rfl

variable {levels : Nat} {definition : String} {items : List Json} {element : Json} {rank : UInt32}

theorem Reference.ofLevels?_generic {arguments : List Reference}
    (h : items.mapM (Reference.ofLevels? levels) = some arguments) :
    Reference.ofLevels? (levels + 1)
      (record [("name", text definition), ("arguments", .arr items)]) =
        some (.generic definition arguments) := by
  simp [Reference.ofLevels?_succ_obj, Json.record, fieldsOf, List.lookup_cons, text, h]

theorem Reference.ofLevels?_array {r : Reference}
    (h : Reference.ofLevels? levels element = some r) :
    Reference.ofLevels? (levels + 1) (record [("array", element), ("rank", nat rank.toNat)]) =
      some (.array r rank) := by
  have hrank : withDefault 1 word32 0 (some (nat rank.toNat)) = some rank := by
    rw [withDefault, word32_nat]
  generalize nat rank.toNat = written at hrank
  simp [Reference.ofLevels?_succ_obj, Json.record, fieldsOf, List.lookup_cons, h, hrank]

theorem Reference.ofLevels?_nullable {r : Reference}
    (h : Reference.ofLevels? levels element = some r) :
    Reference.ofLevels? (levels + 1) (record [("nullable", element)]) = some (.nullable r) := by
  simp [Reference.ofLevels?_succ_obj, Json.record, fieldsOf, List.lookup_cons, h]

end Forms

mutual

theorem Reference.ofLevels?_toJson : (r : Reference) → (levels : Nat) → r.toJson.depth ≤ levels →
    Reference.ofLevels? levels r.toJson = some r
  | .name plain, levels, _ => by
    rw [Reference.toJson, text, Reference.ofLevels?_str, Option.map_some]
  | .generic definition arguments, levels + 1, h => by
    rw [Reference.toJson] at h ⊢
    have harguments : (Json.arr (Reference.toJsonAll arguments)).depth ≤ levels :=
      depth_record_le.1 h ("arguments", _) (by simp)
    have hitems : depthItems (Reference.toJsonAll arguments) ≤ levels :=
      Nat.le_of_succ_le harguments
    exact Reference.ofLevels?_generic (Reference.mapM_toJsonAll arguments levels hitems)
  | .array element rank, levels + 1, h => by
    rw [Reference.toJson] at h ⊢
    have helement : element.toJson.depth ≤ levels := depth_record_le.1 h ("array", _) (by simp)
    exact Reference.ofLevels?_array (Reference.ofLevels?_toJson element levels helement)
  | .nullable inner, levels + 1, h => by
    rw [Reference.toJson] at h ⊢
    have hinner : inner.toJson.depth ≤ levels := depth_record_le.1 h ("nullable", _) (by simp)
    exact Reference.ofLevels?_nullable (Reference.ofLevels?_toJson inner levels hinner)

theorem Reference.mapM_toJsonAll : (arguments : List Reference) → (levels : Nat) →
    depthItems (Reference.toJsonAll arguments) ≤ levels →
    (Reference.toJsonAll arguments).mapM (Reference.ofLevels? levels) = some arguments
  | [], _, _ => rfl
  | r :: rest, levels, h => by
    rw [Reference.toJsonAll, depthItems, Nat.max_le] at h
    rw [Reference.toJsonAll, List.mapM_cons, Reference.ofLevels?_toJson r levels h.1,
      Reference.mapM_toJsonAll rest levels h.2]
    rfl

end

/-! ## Encoding what was decoded -/

/-- What an object is decoded to is one of the forms with parts, decoded from its fields. -/
theorem Reference.ofLevels?_obj {levels : Nat} {fields : List (Option String × Json)}
    {r : Reference} (h : Reference.ofLevels? (levels + 1) (.obj fields) = some r) :
    (∃ definition items arguments,
      fieldsOf ["name", "arguments"] fields =
        some [some (.str (some definition)), some (.arr items)] ∧
      items.mapM (Reference.ofLevels? levels) = some arguments ∧
      r = .generic definition arguments) ∨
    (∃ j field element rank, fieldsOf ["array", "rank"] fields = some [some j, field] ∧
      Reference.ofLevels? levels j = some element ∧ r = .array element rank) ∨
    (∃ j inner, fieldsOf ["nullable"] fields = some [some j] ∧
      Reference.ofLevels? levels j = some inner ∧ r = .nullable inner) := by
  rw [Reference.ofLevels?_succ_obj, Option.orElse_eq_some, Option.orElse_eq_some] at h
  rcases h with hgeneric | ⟨-, harray | ⟨-, hnullable⟩⟩
  · split at hgeneric
    · obtain ⟨arguments, hitems, heq⟩ := Option.map_eq_some_iff.1 hgeneric
      exact .inl ⟨_, _, arguments, ‹_›, hitems, heq.symm⟩
    · cases hgeneric
  · split at harray
    · obtain ⟨element, helement, h⟩ := Option.bind_eq_some_iff.1 harray
      obtain ⟨rank, -, heq⟩ := Option.bind_eq_some_iff.1 h
      exact .inr (.inl ⟨_, _, element, rank, ‹_›, helement, (Option.some.inj heq).symm⟩)
    · cases harray
  · split at hnullable
    · obtain ⟨inner, hinner, heq⟩ := Option.map_eq_some_iff.1 hnullable
      exact .inr (.inr ⟨_, inner, ‹_›, hinner, heq.symm⟩)
    · cases hnullable

/-- A reference is encoded within the levels of the value that it was decoded from. -/
theorem Reference.depth_toJson_le {levels : Nat} {j : Json} {r : Reference}
    (h : Reference.ofLevels? levels j = some r) : r.toJson.depth ≤ j.depth := by
  induction levels generalizing j r with
  | zero =>
    cases j with
    | str t =>
      rw [Reference.ofLevels?_str] at h
      obtain ⟨name, -, rfl⟩ := Option.map_eq_some_iff.1 h
      exact Nat.le_refl 0
    | null | bool | num | arr | obj => cases h
  | succ levels ih =>
    cases j with
    | str t =>
      rw [Reference.ofLevels?_str] at h
      obtain ⟨name, -, rfl⟩ := Option.map_eq_some_iff.1 h
      exact Nat.le_refl 0
    | null | bool | num | arr => cases h
    | obj fields =>
      rcases Reference.ofLevels?_obj h with ⟨definition, items, arguments, hfields, hitems, rfl⟩ |
        ⟨j, field, element, rank, hfields, helement, rfl⟩ | ⟨j, inner, hfields, hinner, rfl⟩
      · have harguments : (Json.arr (Reference.toJsonAll arguments)).depth ≤
            (Json.arr items).depth := by
          apply depth_arr_le_iff.2
          intro written hwritten
          rw [Reference.toJsonAll_eq_map] at hwritten
          obtain ⟨r, hr, rfl⟩ := List.mem_map.1 hwritten
          obtain ⟨j, hj, hlevels⟩ := exists_of_mem_mapM hitems hr
          calc r.toJson.depth
            _ ≤ j.depth := ih hlevels
            _ ≤ depthItems items := depthItems_le_iff.1 (Nat.le_refl _) j hj
        have hitems := depth_le_of_fieldsOf hfields (j := .arr items) (by simp)
        apply depth_record_le.2
        simp only [List.forall_mem_cons]
        exact ⟨Nat.zero_le _, Nat.le_trans harguments hitems, by simp⟩
      · have hj := depth_le_of_fieldsOf hfields (j := j) (by simp)
        apply depth_record_le.2
        simp only [List.forall_mem_cons]
        exact ⟨Nat.le_trans (ih helement) hj, Nat.zero_le _, by simp⟩
      · have hj := depth_le_of_fieldsOf hfields (j := j) (by simp)
        apply depth_record_le.2
        simp only [List.forall_mem_cons]
        exact ⟨Nat.le_trans (ih hinner) hj, by simp⟩

/-! ## Faithfulness -/

/-- A decoder that takes values in whole before it tries the forms, which are decoded faithfully. -/
theorem faithful_readable {α : Type} {least : Nat} {ofLevels? : Nat → Json → Option α} {toJson : α → Json}
    (hplain : ∀ a, (toJson a).plain = true)
    (hundoes : ∀ levels a, (toJson a).depth ≤ levels → ofLevels? levels (toJson a) = some a)
    (hdepth : ∀ levels j a, ofLevels? levels j = some a → (toJson a).depth ≤ j.depth) :
    Decoder.Faithful (fun room j => if readable room j then ofLevels? room j else none)
      toJson least where
  plain := hplain
  undoes room a hroom := by
    have hreadable := readable_of_plain (toJson a) (hplain a) room hroom
    exact (if_pos hreadable).trans (hundoes room a hroom)
  bounds room j a ha := by
    obtain ⟨hreadable, ha⟩ := Option.ite_none_right_eq_some.1 ha
    calc (toJson a).depth
      _ ≤ j.depth := hdepth room j a ha
      _ ≤ room := depth_le_of_readable j room hreadable
      _ ≤ max room least := Nat.le_max_left _ _

theorem Reference.faithful_decoder {least : Nat} :
    Reference.decoder.Faithful Reference.toJson least :=
  faithful_readable Reference.plain_toJson
    (fun levels r h => Reference.ofLevels?_toJson r levels h) fun _ _ _ h =>
      Reference.depth_toJson_le h

theorem ArgumentEntry.plain_toJson (a : ArgumentEntry) : a.toJson.plain = true := by
  cases a with
  | flag | text | null => rfl
  | number n => exact plain_int n
  | typeOf r => simp [ArgumentEntry.toJson, Json.record, plain, plainFields, r.plain_toJson]

theorem ArgumentEntry.ofLevels?_toJson (levels : Nat) (a : ArgumentEntry)
    (h : a.toJson.depth ≤ levels) : ArgumentEntry.ofLevels? levels a.toJson = some a := by
  cases a with
  | flag | text | null => cases levels <;> rfl
  | number n =>
    have hn : (integer64 levels (.num (.int n.toInt))).map ArgumentEntry.number =
        some (.number n) := by rw [integer64_int, Option.map_some]
    cases levels <;> exact hn
  | typeOf r =>
    obtain ⟨levels, rfl⟩ : ∃ fewer, levels = fewer + 1 :=
      ⟨levels - 1, by simp [ArgumentEntry.toJson, Json.record, depth] at h; omega⟩
    have hr : r.toJson.depth ≤ levels := depth_record_le.1 h ("type", r.toJson) (by simp)
    have htype := Reference.ofLevels?_toJson r levels hr
    simp [ArgumentEntry.toJson, ArgumentEntry.ofLevels?, Json.record, fieldsOf, htype]

theorem ArgumentEntry.depth_toJson_le (levels : Nat) (j : Json) (a : ArgumentEntry)
    (h : ArgumentEntry.ofLevels? levels j = some a) : a.toJson.depth ≤ j.depth := by
  cases a with
  | flag | number | text | null => exact Nat.zero_le _
  | typeOf r =>
    obtain ⟨levels, fields, j, rfl, hfields, hr⟩ : ∃ fewer fields inner, j = .obj fields ∧
        fieldsOf ["type"] fields = some [some inner] ∧
        Reference.ofLevels? fewer inner = some r := by
      unfold ArgumentEntry.ofLevels? at h
      split at h
      · cases h
      · obtain ⟨_, -, heq⟩ := Option.map_eq_some_iff.1 h
        cases heq
      · obtain ⟨_, -, heq⟩ := Option.map_eq_some_iff.1 h
        cases heq
      · cases h
      · split at h
        · obtain ⟨r, hr, heq⟩ := Option.map_eq_some_iff.1 h
          cases heq
          exact ⟨_, _, _, rfl, ‹_›, hr⟩
        · cases h
      · cases h
    have hj := depth_le_of_fieldsOf hfields (j := j) (by simp)
    apply depth_record_le.2
    simp only [List.forall_mem_cons]
    exact ⟨Nat.le_trans (Reference.depth_toJson_le hr) hj, by simp⟩

theorem ArgumentEntry.faithful_decoder {least : Nat} :
    ArgumentEntry.decoder.Faithful ArgumentEntry.toJson least :=
  faithful_readable ArgumentEntry.plain_toJson ArgumentEntry.ofLevels?_toJson
    ArgumentEntry.depth_toJson_le

end EventWrap.Document
