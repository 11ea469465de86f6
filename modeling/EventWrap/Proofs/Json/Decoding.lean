import EventWrap.Document.Codec
import EventWrap.Proofs.Json.Layout
import Mathlib.Data.List.Nodup

/-!
# Faithful decoders

A decoder is faithful to an encoder when it gives back whatever was encoded, wherever there is room
for all levels of the encoding, and when what it takes in can be encoded again within the same room,
if only the room suffices for the parts that are always written. Lists, fields and records inherit
this from their parts.
-/

namespace EventWrap.Json

/-! ## Nesting -/

theorem depthItems_le_iff {items : List Json} {n : Nat} :
    depthItems items ≤ n ↔ ∀ item ∈ items, item.depth ≤ n := by
  induction items with
  | nil => simp [depthItems]
  | cons item rest ih => rw [depthItems, Nat.max_le, ih, List.forall_mem_cons]

theorem depthFields_le_iff {fields : List (Option String × Json)} {n : Nat} :
    depthFields fields ≤ n ↔ ∀ f ∈ fields, f.2.depth ≤ n := by
  induction fields with
  | nil => simp [depthFields]
  | cons f rest ih => rw [depthFields, Nat.max_le, ih, List.forall_mem_cons]

theorem depth_arr_le_iff {items : List Json} {n : Nat} :
    (Json.arr items).depth ≤ n + 1 ↔ ∀ item ∈ items, item.depth ≤ n := by
  rw [depth, Nat.add_le_add_iff_right, depthItems_le_iff]

theorem depth_obj_le_iff {fields : List (Option String × Json)} {n : Nat} :
    (Json.obj fields).depth ≤ n + 1 ↔ ∀ f ∈ fields, f.2.depth ≤ n := by
  rw [depth, Nat.add_le_add_iff_right, depthFields_le_iff]

theorem depth_record_le {fields : List (String × Json)} {n : Nat} :
    (record fields).depth ≤ n + 1 ↔ ∀ f ∈ fields, f.2.depth ≤ n := by
  rw [record, depth_obj_le_iff, List.forall_mem_map]

/-! ## Plain and integral values -/

theorem plainItems_iff {items : List Json} : plainItems items ↔ ∀ item ∈ items, item.plain := by
  induction items with
  | nil => simp [plainItems]
  | cons item rest ih => simp [plainItems, ih]

theorem plainFields_iff {fields : List (Option String × Json)} :
    plainFields fields ↔ ∀ f ∈ fields, f.1.isSome ∧ f.2.plain := by
  induction fields with
  | nil => simp [plainFields]
  | cons f rest ih => simp [plainFields, ih]

theorem integralFields_iff {fields : List (Option String × Json)} :
    integralFields fields ↔ ∀ f ∈ fields, f.1.isSome ∧ f.2.integral := by
  induction fields with
  | nil => simp [integralFields]
  | cons f rest ih => simp [integralFields, ih]

theorem integral_record {fields : List (String × Json)} :
    (record fields).integral ↔ ∀ f ∈ fields, f.2.integral := by
  rw [record, integral, integralFields_iff, List.forall_mem_map]
  exact forall₂_congr fun f _ => and_iff_right rfl

theorem integral_nat (n : Nat) : (nat n).integral = true := by rw [nat, integral]

namespace Number

/-- Rounding raises a number at most to its double. -/
theorem rounded_le (n : Nat) : rounded n ≤ 2 * n := by
  by_cases hn : n = 0
  · subst hn
    decide
  have hunit : Nat.pow 2 (n.log2 - 52) ≤ n := by
    calc Nat.pow 2 (n.log2 - 52)
      _ ≤ 2 ^ n.log2 := Nat.pow_le_pow_right (by decide) (Nat.sub_le _ _)
      _ ≤ n := Nat.log2_self_le hn
  have hbelow := Nat.div_mul_le_self n (Nat.pow 2 (n.log2 - 52))
  simp only [rounded]
  split
  · omega
  · rw [Nat.add_mul, Nat.one_mul]
    omega

theorem isFinite_int {n : Int} (hn : n.natAbs < UInt64.size) : (Number.int n).isFinite = true := by
  have hleading : leading n.natAbs = (n.natAbs, 0) := by rw [leading, dif_pos hn]
  have hlimit : 4 * UInt64.size ≤ limit := by decide +kernel
  have hone : rounded (Nat.pow 10 0) ≤ 2 := rounded_le 1
  have hproduct : rounded n.natAbs * rounded (Nat.pow 10 0) < limit := by
    calc rounded n.natAbs * rounded (Nat.pow 10 0)
      _ ≤ 2 * n.natAbs * 2 := Nat.mul_le_mul (rounded_le _) hone
      _ < limit := by omega
  rw [isFinite, hleading, fits]
  simp only [Bool.or_eq_true, Bool.and_eq_true, decide_eq_true_eq]
  exact .inr ⟨by decide, hproduct⟩

end Number

mutual

theorem readable_of_plain : (j : Json) → j.plain = true → (room : Nat) → j.depth ≤ room →
    readable room j = true
  | .null, _, _, _ => by rw [readable]
  | .bool _, _, _, _ => by rw [readable]
  | .num (.int n), h, _, _ => by
    rw [readable]
    exact Number.isFinite_int (by simpa [plain] using h)
  | .str (some _), _, _, _ => by
    rw [readable]
    rfl
  | .arr items, h, room + 1, hdepth => by
    rw [readable]
    rw [plain] at h
    exact readableItems_of_plain items h room (Nat.le_of_succ_le_succ hdepth)
  | .obj fields, h, room + 1, hdepth => by
    rw [readable]
    rw [plain] at h
    exact readableFields_of_plain fields h room (Nat.le_of_succ_le_succ hdepth)

theorem readableItems_of_plain : (items : List Json) → plainItems items = true → (room : Nat) →
    depthItems items ≤ room → readableItems room items = true
  | [], _, _, _ => by rw [readableItems]
  | item :: rest, h, room, hdepth => by
    rw [plainItems, Bool.and_eq_true] at h
    rw [depthItems, Nat.max_le] at hdepth
    rw [readableItems, readable_of_plain item h.1 room hdepth.1,
      readableItems_of_plain rest h.2 room hdepth.2, Bool.and_true]

theorem readableFields_of_plain : (fields : List (Option String × Json)) →
    plainFields fields = true → (room : Nat) → depthFields fields ≤ room →
    readableFields room fields = true
  | [], _, _, _ => by rw [readableFields]
  | (key, value) :: rest, h, room, hdepth => by
    rw [plainFields, Bool.and_eq_true, Bool.and_eq_true] at h
    rw [depthFields, Nat.max_le] at hdepth
    rw [readableFields, h.1.1, readable_of_plain value h.1.2 room hdepth.1,
      readableFields_of_plain rest h.2 room hdepth.2, Bool.and_true, Bool.and_true]

end

mutual

theorem depth_le_of_readable : (j : Json) → (room : Nat) → readable room j = true → j.depth ≤ room
  | .null, _, _ | .bool _, _, _ | .num _, _, _ | .str _, _, _ => Nat.zero_le _
  | .arr items, 0, h => by
    rw [readable] at h
    cases h
  | .arr items, room + 1, h => by
    rw [readable] at h
    exact Nat.succ_le_succ (depthItems_le_of_readable items room h)
  | .obj fields, 0, h => by
    rw [readable] at h
    cases h
  | .obj fields, room + 1, h => by
    rw [readable] at h
    exact Nat.succ_le_succ (depthFields_le_of_readable fields room h)

theorem depthItems_le_of_readable : (items : List Json) → (room : Nat) →
    readableItems room items = true → depthItems items ≤ room
  | [], _, _ => Nat.zero_le _
  | item :: rest, room, h => by
    rw [readableItems, Bool.and_eq_true] at h
    exact Nat.max_le.2 ⟨depth_le_of_readable item room h.1,
      depthItems_le_of_readable rest room h.2⟩

theorem depthFields_le_of_readable : (fields : List (Option String × Json)) → (room : Nat) →
    readableFields room fields = true → depthFields fields ≤ room
  | [], _, _ => Nat.zero_le _
  | (key, value) :: rest, room, h => by
    rw [readableFields, Bool.and_eq_true, Bool.and_eq_true] at h
    exact Nat.max_le.2 ⟨depth_le_of_readable value room h.1.2,
      depthFields_le_of_readable rest room h.2⟩

end

/-! ## Fields of records -/

/-- The fields that are present, under their keys. -/
def presentFields : List (String × Option Json) → List (Option String × Json)
  | [] => []
  | (key, some value) :: rest => (some key, value) :: presentFields rest
  | (_, none) :: rest => presentFields rest

section PresentFields

variable {fields : List (String × Option Json)}

theorem present_eq (fields : List (String × Option Json)) :
    Document.present fields = .obj (presentFields fields) := by
  have hfields : (fields.filterMap fun e => e.2.map (e.1, ·)).map (fun e => (some e.1, e.2)) =
      presentFields fields := by
    induction fields with
    | nil => rfl
    | cons e rest ih =>
      obtain ⟨key, _ | value⟩ := e
      · exact ih
      · exact congrArg ((some key, value) :: ·) ih
  exact congrArg Json.obj hfields

theorem mem_presentFields {key : Option String} {value : Json} :
    (key, value) ∈ presentFields fields ↔ ∃ k, key = some k ∧ (k, some value) ∈ fields := by
  induction fields with
  | nil => simp [presentFields]
  | cons e rest ih =>
    obtain ⟨k, _ | v⟩ := e
    · simp [presentFields, ih]
    · simp only [presentFields, List.mem_cons, ih, Prod.mk.injEq, Option.some.injEq]
      constructor
      · rintro (⟨rfl, rfl⟩ | ⟨k', rfl, hmem⟩)
        · exact ⟨k, rfl, .inl ⟨rfl, rfl⟩⟩
        · exact ⟨k', rfl, .inr hmem⟩
      · rintro ⟨k', rfl, ⟨rfl, rfl⟩ | hmem⟩
        · exact .inl ⟨rfl, rfl⟩
        · exact .inr ⟨k', rfl, hmem⟩

theorem forall_presentFields (P : Json → Prop) :
    (∀ f ∈ presentFields fields, P f.2) ↔ ∀ e ∈ fields, ∀ value ∈ e.2, P value := by
  constructor
  · rintro h ⟨key, value⟩ hmem value rfl
    exact h (some key, value) (mem_presentFields.2 ⟨key, rfl, hmem⟩)
  · rintro h ⟨key, value⟩ hmem
    obtain ⟨k, -, hfield⟩ := mem_presentFields.1 hmem
    exact h (k, some value) hfield value rfl

theorem depth_present_le {n : Nat} :
    (Document.present fields).depth ≤ n + 1 ↔ ∀ e ∈ fields, ∀ value ∈ e.2, value.depth ≤ n := by
  rw [present_eq, depth_obj_le_iff]
  exact forall_presentFields (·.depth ≤ n)

theorem plain_present :
    (Document.present fields).plain ↔ ∀ e ∈ fields, ∀ value ∈ e.2, value.plain := by
  rw [present_eq, plain, plainFields_iff]
  refine Iff.trans ?_ (forall_presentFields fun value => value.plain)
  constructor
  · exact fun h f hf => (h f hf).2
  · rintro h ⟨key, value⟩ hmem
    obtain ⟨k, rfl, -⟩ := mem_presentFields.1 hmem
    exact ⟨rfl, h _ hmem⟩

theorem keys_presentFields_sublist :
    ((presentFields fields).map (·.1)).Sublist (fields.map fun e => some e.1) := by
  induction fields with
  | nil => exact List.Sublist.slnil
  | cons e rest ih =>
    obtain ⟨key, _ | value⟩ := e
    · exact ih.cons _
    · exact ih.cons_cons _

theorem lookup_presentFields_of_notMem {key : String} (h : key ∉ fields.map (·.1)) :
    (presentFields fields).lookup (some key) = none := by
  apply List.lookup_eq_none_iff.2
  rintro ⟨k, value⟩ hmem
  obtain ⟨k, rfl, hfield⟩ := mem_presentFields.1 hmem
  have hne : key ≠ k := fun heq => h (heq ▸ List.mem_map_of_mem hfield)
  simpa using hne

theorem lookup_presentFields (h : (fields.map (·.1)).Nodup) {e : String × Option Json}
    (he : e ∈ fields) : (presentFields fields).lookup (some e.1) = e.2 := by
  induction fields with
  | nil => cases he
  | cons first rest ih =>
    rw [List.map_cons, List.nodup_cons] at h
    obtain ⟨key, value⟩ := first
    rcases List.mem_cons.1 he with rfl | hrest
    · cases value with
      | none =>
        have hnone : (presentFields rest).lookup (some key) = none :=
          lookup_presentFields_of_notMem h.1
        exact hnone
      | some value => exact List.lookup_cons_self
    · have hmem : e.1 ∈ rest.map (·.1) := List.mem_map_of_mem hrest
      have hne : e.1 ≠ key := fun heq => h.1 (heq ▸ hmem)
      cases value with
      | none => exact ih h.2 hrest
      | some value =>
        have hskip : (some e.1 == some key) = false := by simpa using hne
        rw [presentFields, List.lookup_cons, hskip]
        exact ih h.2 hrest

/-- All fields of a record with distinct keys are found. -/
theorem fieldsOf_presentFields (h : (fields.map (·.1)).Nodup) :
    Decoder.fieldsOf (fields.map (·.1)) (presentFields fields) = some (fields.map (·.2)) := by
  have hkeys : (presentFields fields).all (·.1.isSome) := by
    apply List.all_eq_true.2
    rintro ⟨key, value⟩ hmem
    obtain ⟨k, rfl, -⟩ := mem_presentFields.1 hmem
    rfl
  have hnodup : ((presentFields fields).map (·.1)).Nodup := by
    apply List.Nodup.sublist keys_presentFields_sublist
    have hsome := h.map (f := some) fun _ _ heq => Option.some.inj heq
    rwa [List.map_map] at hsome
  have honce : (fields.map (·.1)).all fun name =>
      decide ((presentFields fields).countP (fun f => f.1 = some name) ≤ 1) := by
    apply List.all_eq_true.2
    intro name _
    have hcount := List.nodup_iff_count_le_one.1 hnodup (some name)
    rw [List.count, List.countP_map] at hcount
    rw [decide_eq_true_eq]
    calc (presentFields fields).countP (fun f => f.1 = some name)
      _ = (presentFields fields).countP ((· == some name) ∘ (·.1)) := by
        apply List.countP_congr
        intro f _
        simp
      _ ≤ 1 := hcount
  rw [Decoder.fieldsOf, if_pos ⟨hkeys, honce⟩, List.map_map]
  apply congrArg some
  apply List.map_congr_left
  exact fun e he => lookup_presentFields h he

end PresentFields

/-- A written record is read as the values of its fields, when they have distinct keys. -/
theorem Decoder.record_record {α : Type} {names : List String}
    {body : Nat → List (Option Json) → Option α} {fields : List (String × Json)}
    (hnames : fields.map (·.1) = names) (hnodup : names.Nodup) (room : Nat) :
    Decoder.record names body (room + 1) (Json.record fields) =
      body room (fields.map fun f => some f.2) := by
  have hpresent : fields.map (fun f => (some f.1, f.2)) =
      presentFields (fields.map fun f => (f.1, some f.2)) := by
    clear hnames
    induction fields with
    | nil => rfl
    | cons f rest ih => exact congrArg ((some f.1, f.2) :: ·) ih
  have hkeys : (fields.map fun f => (f.1, some f.2)).map (·.1) = names := by
    rw [← hnames, List.map_map]
    rfl
  have hvalues : Decoder.fieldsOf names (fields.map fun f => (some f.1, f.2)) =
      some (fields.map fun f => some f.2) := by
    rw [← hkeys] at hnodup
    rw [hpresent, ← hkeys, fieldsOf_presentFields hnodup, List.map_map]
    rfl
  exact congrArg (·.bind (body room)) hvalues

theorem mem_of_lookup {fields : List (Option String × Json)} {key : Option String} {j : Json}
    (h : fields.lookup key = some j) : (key, j) ∈ fields := by
  obtain ⟨before, after, rfl, -⟩ := List.lookup_eq_some_iff.1 h
  exact List.mem_append_right _ List.mem_cons_self

theorem length_of_fieldsOf {names : List String} {fields : List (Option String × Json)}
    {values : List (Option Json)} (h : Decoder.fieldsOf names fields = some values) :
    values.length = names.length := by
  rw [Decoder.fieldsOf] at h
  split at h
  · cases h
    exact List.length_map _
  · cases h

theorem depth_le_of_fieldsOf {names : List String} {fields : List (Option String × Json)}
    {values : List (Option Json)} (h : Decoder.fieldsOf names fields = some values) {j : Json}
    (hj : some j ∈ values) : j.depth ≤ depthFields fields := by
  rw [Decoder.fieldsOf] at h
  split at h
  · cases h
    obtain ⟨name, -, hlookup⟩ := List.mem_map.1 hj
    exact depthFields_le_iff.1 (Nat.le_refl _) (some name, j) (mem_of_lookup hlookup)
  · cases h

theorem exists_of_mem_mapM {α β : Type} {f : α → Option β} {l : List α} {l' : List β}
    (h : l.mapM f = some l') {b : β} (hb : b ∈ l') : ∃ a ∈ l, f a = some b := by
  induction l generalizing l' with
  | nil =>
    cases h
    cases hb
  | cons a rest ih =>
    rw [List.mapM_cons] at h
    obtain ⟨first, hfirst, h⟩ := Option.bind_eq_some_iff.1 h
    obtain ⟨others, hothers, h⟩ := Option.bind_eq_some_iff.1 h
    cases h
    rcases List.mem_cons.1 hb with rfl | hb
    · exact ⟨a, List.mem_cons_self, hfirst⟩
    · obtain ⟨a', ha', hf⟩ := ih hothers hb
      exact ⟨a', List.mem_cons_of_mem _ ha', hf⟩

theorem mapM_map_eq_some {α β : Type} {f : β → Option α} {g : α → β} {l : List α}
    (h : ∀ a ∈ l, f (g a) = some a) : (l.map g).mapM f = some l := by
  induction l with
  | nil => rfl
  | cons a rest ih =>
    have hrest := ih fun a ha => h a (List.mem_cons_of_mem _ ha)
    rw [List.map_cons, List.mapM_cons, h a List.mem_cons_self, hrest]
    rfl

/-! ## Faithful decoders -/

namespace Decoder

variable {α : Type} {decode : Decoder α} {encode : α → Json} {least : Nat}

/-- What was encoded is decoded where there is room for it, and what is decoded is encoded within
the room that it was decoded in, or within the least room for the parts that are always written. -/
structure Faithful (decode : Decoder α) (encode : α → Json) (least : Nat) : Prop where
  plain : ∀ a, (encode a).plain = true
  undoes : ∀ room a, (encode a).depth ≤ room → decode room (encode a) = some a
  bounds : ∀ room j a, decode room j = some a → (encode a).depth ≤ max room least

/-- What was written into a field is read from it, and what is read is written within the room. -/
structure FaithfulField (read : Nat → Option Json → Option α) (write : α → Option Json)
    (least : Nat) : Prop where
  plain : ∀ a, ∀ j ∈ write a, j.plain = true
  undoes : ∀ room a, (∀ j ∈ write a, j.depth ≤ room) → read room (write a) = some a
  bounds : ∀ room field a, read room field = some a → ∀ j ∈ write a, j.depth ≤ max room least

/-! ## Leaves -/

theorem faithful_leaf (hplain : ∀ a, (encode a).plain = true) (hdepth : ∀ a, (encode a).depth = 0)
    (hundoes : ∀ room a, decode room (encode a) = some a) : decode.Faithful encode least where
  plain := hplain
  undoes room a _ := hundoes room a
  bounds room j a _ := by
    rw [hdepth a]
    exact Nat.zero_le _

theorem natural_nat {bound n : Nat} (h : n < bound) (room : Nat) :
    natural bound room (nat n) = some n := by
  have hrange : (0 : Int) ≤ n ∧ (n : Int) < bound := ⟨Int.natCast_nonneg n, Int.ofNat_lt.2 h⟩
  rw [nat, natural, if_pos hrange, Int.toNat_natCast]

theorem faithful_string : string.Faithful text least :=
  faithful_leaf (fun _ => rfl) (fun _ => rfl) (fun _ _ => rfl)

theorem faithful_boolean : boolean.Faithful .bool least :=
  faithful_leaf (fun _ => rfl) (fun _ => rfl) (fun _ _ => rfl)

theorem plain_nat (n : UInt32) : (nat n.toNat).plain = true := by
  have hsize : n.toNat < UInt64.size := Nat.lt_trans n.toNat_lt (by decide)
  rw [nat, plain, Int.natAbs_natCast]
  exact decide_eq_true hsize

theorem plain_int (n : Int64) : (Json.num (.int n.toInt)).plain = true := by
  have hleast := Int64.minValue_le_toInt n
  have hgreatest := Int64.toInt_le n
  have hmin : Int64.minValue.toInt = -2 ^ 63 := by decide
  have hmax : Int64.maxValue.toInt = 2 ^ 63 - 1 := by decide
  have hsize : n.toInt.natAbs < UInt64.size := by
    rw [UInt64.size]
    omega
  rw [plain]
  exact decide_eq_true hsize

theorem word32_nat (room : Nat) (n : UInt32) : word32 room (nat n.toNat) = some n := by
  rw [word32, natural_nat n.toNat_lt, Option.map_some, UInt32.ofNat_toNat]

theorem integer64_int (room : Nat) (n : Int64) : integer64 room (.num (.int n.toInt)) = some n := by
  have hrange : Int64.minValue.toInt ≤ n.toInt ∧ n.toInt ≤ Int64.maxValue.toInt :=
    ⟨Int64.minValue_le_toInt n, Int64.toInt_le n⟩
  simp only [integer64, if_pos hrange]
  rw [Int64.ofInt_toInt]

theorem faithful_word32 : word32.Faithful (fun n => nat n.toNat) least :=
  faithful_leaf plain_nat (fun _ => rfl) word32_nat

theorem faithful_word {table : List (String × α)} {toWord : α → String}
    (h : ∀ a, table.lookup (toWord a) = some a) :
    (word table).Faithful (fun a => text (toWord a)) least :=
  faithful_leaf (fun _ => rfl) (fun _ => rfl) fun room a => by cases room <;> exact h a

/-! ## Lists and fields -/

namespace Faithful

variable (h : decode.Faithful encode least)

include h

theorem list : decode.list.Faithful (fun as => .arr (as.map encode)) (least + 1) where
  plain as := by
    rw [Json.plain, plainItems_iff]
    intro item hitem
    obtain ⟨a, -, rfl⟩ := List.mem_map.1 hitem
    exact h.plain a
  undoes room as hroom := by
    obtain ⟨room, rfl⟩ : ∃ fewer, room = fewer + 1 :=
      ⟨room - 1, by rw [depth] at hroom; omega⟩
    rw [depth_arr_le_iff] at hroom
    exact mapM_map_eq_some fun a ha => h.undoes room a (hroom _ (List.mem_map_of_mem ha))
  bounds room j as has := by
    obtain ⟨room, items, rfl, hitems⟩ : ∃ (fewer : Nat) (items : List Json),
        room = fewer + 1 ∧ items.mapM (decode fewer) = some as := by
      unfold Decoder.list at has
      split at has
      · exact ⟨_, _, rfl, has⟩
      · cases has
    rw [Nat.add_max_add_right]
    apply depth_arr_le_iff.2
    intro item hitem
    obtain ⟨a, ha, rfl⟩ := List.mem_map.1 hitem
    obtain ⟨j, -, hj⟩ := exists_of_mem_mapM hitems ha
    exact h.bounds room j a hj

theorem required : FaithfulField (required decode) (fun a => some (encode a)) least where
  plain a := by
    rintro j ⟨⟩
    exact h.plain a
  undoes room a hroom := h.undoes room a (hroom _ rfl)
  bounds room field a ha := by
    rintro j ⟨⟩
    obtain ⟨j, -, hj⟩ := Option.bind_eq_some_iff.1 ha
    exact h.bounds room j a hj

theorem withDefault {absent : α} (habsent : (encode absent).depth ≤ least) :
    FaithfulField (withDefault absent decode) (fun a => some (encode a)) least where
  plain a := by
    rintro j ⟨⟩
    exact h.plain a
  undoes room a hroom := h.undoes room a (hroom _ rfl)
  bounds room field a ha := by
    rintro j ⟨⟩
    cases field with
    | none =>
      cases ha
      exact Nat.le_trans habsent (Nat.le_max_right _ _)
    | some j => exact h.bounds room j a ha

theorem maybe (hnull : ∀ a, encode a ≠ .null) :
    FaithfulField (maybe decode) (fun o => o.map encode) least where
  plain o j hj := by
    obtain ⟨a, -, rfl⟩ := Option.map_eq_some_iff.1 hj
    exact h.plain a
  undoes room o hroom := by
    cases o with
    | none => rfl
    | some a =>
      have ha : decode room (encode a) = some a := h.undoes room a (hroom _ rfl)
      cases hj : encode a with
      | null => exact absurd hj (hnull a)
      | bool | num | str | arr | obj =>
        rw [hj] at ha
        simp only [Decoder.maybe, Decoder.withDefault, optional, Option.map_some, hj, ha]
  bounds room field o ho j hj := by
    obtain ⟨a, rfl, rfl⟩ := Option.map_eq_some_iff.1 hj
    cases field with
    | none => cases ho
    | some j =>
      rw [Decoder.maybe, Decoder.withDefault] at ho
      unfold optional at ho
      split at ho
      · cases ho
      · obtain ⟨b, hb, heq⟩ := Option.map_eq_some_iff.1 ho
        cases heq
        exact h.bounds room j a hb

end Faithful

/-! ## Records -/

/-- A part of a record with the key that it is written under and a faithful reader. -/
structure RecordField (α : Type) (least : Nat) where
  key : String
  Part : Type
  read : Nat → Option Json → Option Part
  write : Part → Option Json
  get : α → Part
  faithful : FaithfulField read write least

namespace RecordField

variable {β : Type} {decode : Decoder β} {encode : β → Json} {least : Nat}

def required (key : String) (get : α → β) (h : decode.Faithful encode least) :
    RecordField α least where
  key := key
  Part := β
  read := Decoder.required decode
  write b := some (encode b)
  get := get
  faithful := h.required

def withDefault (key : String) (get : α → β) (absent : β) (h : decode.Faithful encode least)
    (habsent : (encode absent).depth ≤ least) : RecordField α least where
  key := key
  Part := β
  read := Decoder.withDefault absent decode
  write b := some (encode b)
  get := get
  faithful := h.withDefault habsent

/-- A list that is empty when it is not written. -/
def list (key : String) (get : α → List β) (h : decode.Faithful encode least) :
    RecordField α (least + 1) :=
  withDefault key get [] h.list (Nat.le_add_left 1 least)

def maybe (key : String) (get : α → Option β) (h : decode.Faithful encode least)
    (hnull : ∀ b, encode b ≠ .null) : RecordField α least where
  key := key
  Part := Option β
  read := Decoder.maybe decode
  write o := o.map encode
  get := get
  faithful := h.maybe hnull

def written (f : RecordField α least) (a : α) : Option Json := f.write (f.get a)

/-- The parts of a record, one for each of its fields. -/
def Parts : List (RecordField α least) → Type
  | [] => Unit
  | f :: rest => f.Part × Parts rest

def partsOf : (fields : List (RecordField α least)) → α → Parts fields
  | [], _ => ()
  | f :: rest, a => (f.get a, partsOf rest a)

/-- What makes something of the parts, taken one after the other. -/
def Maker (γ : Type) : List (RecordField α least) → Type
  | [] => γ
  | f :: rest => f.Part → Maker γ rest

variable {γ : Type}

def makeOf : (fields : List (RecordField α least)) → Maker γ fields → Parts fields → γ
  | [], made, _ => made
  | _ :: rest, make, (part, parts) => makeOf rest (make part) parts

def readWith (room : Nat) : (fields : List (RecordField α least)) → Maker γ fields →
    List (Option Json) → Option γ
  | [], made, _ => some made
  | f :: rest, make, value :: values =>
    f.read room value >>= fun part => readWith room rest (make part) values
  | _ :: _, _, [] => none

variable {room : Nat} {fields : List (RecordField α least)}

theorem readWith_written {a : α} (h : ∀ f ∈ fields, ∀ j ∈ f.written a, j.depth ≤ room)
    (make : Maker γ fields) :
    readWith room fields make (fields.map (·.written a)) =
      some (makeOf fields make (partsOf fields a)) := by
  induction fields with
  | nil => rfl
  | cons f rest ih =>
    rw [List.forall_mem_cons] at h
    have hread : f.read room (f.written a) = some (f.get a) :=
      f.faithful.undoes room (f.get a) h.1
    rw [List.map_cons, readWith, hread, Option.bind_eq_bind, Option.bind_some, ih h.2, partsOf,
      makeOf]

/-- Whatever has the parts that were read is written within the room. -/
theorem bounds_of_readWith {make : Maker γ fields} {values : List (Option Json)} {c : γ}
    (h : readWith room fields make values = some c) :
    ∃ parts, c = makeOf fields make parts ∧ ∀ a, partsOf fields a = parts →
      ∀ f ∈ fields, ∀ j ∈ f.written a, j.depth ≤ max room least := by
  induction fields generalizing values with
  | nil => exact ⟨(), (Option.some.inj h).symm, fun _ _ _ => nofun⟩
  | cons f rest ih =>
    cases values with
    | nil => cases h
    | cons value values =>
      obtain ⟨part, hpart, h⟩ := Option.bind_eq_some_iff.1 h
      obtain ⟨parts, hmake, hparts⟩ := ih h
      refine ⟨(part, parts), hmake, fun a ha => ?_⟩
      obtain ⟨hget, hrest⟩ := Prod.mk.inj ha
      rw [List.forall_mem_cons]
      constructor
      · rw [written, hget]
        exact f.faithful.bounds room value part hpart
      · exact hparts a hrest

end RecordField

/-- A record that is made of the parts that its fields read, and keeps them, is decoded when they
are, and is encoded within one level more than they are. -/
theorem faithful_record {names : List String} {body : Nat → List (Option Json) → Option α}
    (fields : List (RecordField α least)) (make : RecordField.Maker α fields)
    (hnames : fields.map (·.key) = names) (hnodup : names.Nodup)
    (hbody : ∀ room values, values.length = fields.length →
      body room values = RecordField.readWith room fields make values)
    (hmake : ∀ a, RecordField.makeOf fields make (RecordField.partsOf fields a) = a)
    (hparts : ∀ parts,
      RecordField.partsOf fields (RecordField.makeOf fields make parts) = parts) :
    (record names body).Faithful
      (fun a => Document.present (fields.map fun f => (f.key, f.written a))) (least + 1) where
  plain a := by
    rw [plain_present, List.forall_mem_map]
    exact fun f _ => f.faithful.plain (f.get a)
  undoes room a hroom := by
    obtain ⟨room, rfl⟩ : ∃ fewer, room = fewer + 1 :=
      ⟨room - 1, by rw [present_eq, depth] at hroom; omega⟩
    rw [depth_present_le, List.forall_mem_map] at hroom
    have hkeys : (fields.map fun f => (f.key, f.written a)).map (·.1) = names := by
      rw [← hnames, List.map_map]
      rfl
    rw [← hkeys] at hnodup
    have hvalues := fieldsOf_presentFields hnodup
    rw [hkeys, List.map_map] at hvalues
    have hread : body room (fields.map (·.written a)) = some a := by
      rw [hbody room _ (List.length_map _), RecordField.readWith_written hroom, hmake]
    rw [present_eq, record]
    exact Option.bind_eq_some_iff.2 ⟨_, hvalues, hread⟩
  bounds room j a ha := by
    obtain ⟨room, values, rfl, hlength, hvalues⟩ : ∃ fewer values, room = fewer + 1 ∧
        values.length = fields.length ∧ body fewer values = some a := by
      unfold record at ha
      split at ha
      case h_1 room written =>
        obtain ⟨values, hfields, hvalues⟩ := Option.bind_eq_some_iff.1 ha
        have hlength := length_of_fieldsOf hfields
        rw [← hnames, List.length_map] at hlength
        exact ⟨room, values, rfl, hlength, hvalues⟩
      case h_2 room items =>
        split at ha
        case isTrue hfew =>
          refine ⟨room, _, rfl, ?_, ha⟩
          rw [← hnames, List.length_map] at hfew
          simp only [← hnames, List.length_append, List.length_map, List.length_replicate]
          omega
        case isFalse => cases ha
      case h_3 => cases ha
    rw [hbody room values hlength] at hvalues
    obtain ⟨parts, rfl, hbounds⟩ := RecordField.bounds_of_readWith hvalues
    rw [Nat.add_max_add_right, depth_present_le, List.forall_mem_map]
    exact hbounds _ (hparts parts)

end Decoder

end EventWrap.Json
