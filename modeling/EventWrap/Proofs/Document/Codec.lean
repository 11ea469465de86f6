import EventWrap.Proofs.Document.Untagged

/-!
# Documents through JSON

Decoding undoes encoding for every part of a document and so for documents, as values and as texts.
A text that was accepted is encoded within the levels that a text may nest, because what is always
written of a document nests less deeply than that.
-/

namespace EventWrap

open Json Json.Decoder

/-! ## Records

Each record is told by its fields in the order of its constructor. What remains is by definition: its
keys and that they are distinct, what its decoder reads, and that it keeps its parts. -/

variable {least : Nat}

theorem Location.faithful_decoder : Location.decoder.Faithful Location.toJson (least + 1) :=
  faithful_record
    [.withDefault "file" file "" faithful_string (Nat.zero_le _),
      .withDefault "line" line 0 faithful_word32 (Nat.zero_le _),
      .withDefault "column" column 0 faithful_word32 (Nat.zero_le _)]
    mk rfl (by decide) (fun | _, [_, _, _], _ => rfl) (fun _ => rfl) (fun _ => rfl)

namespace Document

theorem AttributeEntry.faithful_decoder :
    AttributeEntry.decoder.Faithful AttributeEntry.toJson (least + 2) :=
  faithful_record
    [.required "name" name faithful_string,
      .list "arguments" arguments ArgumentEntry.faithful_decoder,
      .withDefault "location" location {} Location.faithful_decoder (Nat.le_add_left _ _)]
    mk rfl (by decide) (fun | _, [_, _, _], _ => rfl) (fun _ => rfl) (fun _ => rfl)

theorem ParameterEntry.faithful_decoder :
    ParameterEntry.decoder.Faithful ParameterEntry.toJson (least + 1) :=
  faithful_record
    [.required "name" name faithful_string,
      .required "type" type Reference.faithful_decoder]
    mk rfl (by decide) (fun | _, [_, _], _ => rfl) (fun _ => rfl) (fun _ => rfl)

theorem SignatureEntry.faithful_decoder :
    SignatureEntry.decoder.Faithful SignatureEntry.toJson (least + 3) :=
  faithful_record
    [.maybe "return" result Reference.faithful_decoder Reference.toJson_ne_null,
      .list "parameters" parameters ParameterEntry.faithful_decoder]
    mk rfl (by decide) (fun | _, [_, _], _ => rfl) (fun _ => rfl) (fun _ => rfl)

theorem TypeParameterEntry.faithful_decoder :
    TypeParameterEntry.decoder.Faithful TypeParameterEntry.toJson (least + 2) :=
  faithful_record
    [.required "name" name faithful_string,
      .withDefault "reference_type" isReference false faithful_boolean (Nat.zero_le _),
      .withDefault "value_type" isValue false faithful_boolean (Nat.zero_le _),
      .withDefault "constructor" hasConstructor false faithful_boolean (Nat.zero_le _),
      .list "types" bounds Reference.faithful_decoder]
    mk rfl (by decide) (fun | _, [_, _, _, _, _], _ => rfl) (fun _ => rfl) (fun _ => rfl)

theorem EventEntry.faithful_decoder : EventEntry.decoder.Faithful EventEntry.toJson (least + 4) :=
  faithful_record
    [.required "name" name faithful_string,
      .required "type" delegate Reference.faithful_decoder,
      .withDefault "accessibility" accessibility .everyone
        (faithful_word Accessibility.lookup_word) (Nat.zero_le _),
      .withDefault "is_static" isStatic false faithful_boolean (Nat.zero_le _),
      .list "attributes" attributes AttributeEntry.faithful_decoder]
    mk rfl (by decide) (fun | _, [_, _, _, _, _], _ => rfl) (fun _ => rfl) (fun _ => rfl)

theorem TypeEntry.faithful_decoder : TypeEntry.decoder.Faithful TypeEntry.toJson (least + 6) :=
  faithful_record
    [.withDefault "namespace" namespaceName "" faithful_string (Nat.zero_le _),
      .required "name" name faithful_string,
      .maybe "containing_type" container faithful_string (fun _ => nofun),
      .withDefault "kind" kind .classType (faithful_word TypeKind.lookup_word) (Nat.zero_le _),
      .withDefault "accessibility" accessibility .everyone
        (faithful_word Accessibility.lookup_word) (Nat.zero_le _),
      .withDefault "is_static" isStatic false faithful_boolean (Nat.zero_le _),
      .withDefault "is_abstract" isAbstract false faithful_boolean (Nat.zero_le _),
      .withDefault "is_sealed" isSealed false faithful_boolean (Nat.zero_le _),
      .list "type_parameters" typeParameters TypeParameterEntry.faithful_decoder,
      .maybe "base" base Reference.faithful_decoder Reference.toJson_ne_null,
      .list "events" events EventEntry.faithful_decoder,
      .list "attributes" attributes AttributeEntry.faithful_decoder,
      .maybe "invoke" invoke SignatureEntry.faithful_decoder (fun _ => nofun),
      .withDefault "location" location {} Location.faithful_decoder (Nat.le_add_left _ _)]
    mk rfl (by decide) (fun | _, [_, _, _, _, _, _, _, _, _, _, _, _, _, _], _ => rfl) (fun _ => rfl)
    (fun _ => rfl)

theorem InvocationEntry.faithful_decoder :
    InvocationEntry.decoder.Faithful InvocationEntry.toJson (least + 2) :=
  faithful_record
    [.required "method" method faithful_string,
      .maybe "containing_type" container faithful_string (fun _ => nofun),
      .list "type_arguments" typeArguments Reference.faithful_decoder,
      .withDefault "location" location {} Location.faithful_decoder (Nat.le_add_left _ _)]
    mk rfl (by decide) (fun | _, [_, _, _, _], _ => rfl) (fun _ => rfl) (fun _ => rfl)

/-! ## Documents -/

theorem faithful_decoder : Document.decoder.Faithful Document.toJson 8 :=
  faithful_record
    [.list "types" types TypeEntry.faithful_decoder,
      .list "assembly_attributes" assemblyAttributes AttributeEntry.faithful_decoder,
      .list "invocations" invocations InvocationEntry.faithful_decoder]
    mk rfl (by decide) (fun | _, [_, _, _], _ => rfl) (fun _ => rfl) (fun _ => rfl)

/-- A document that was accepted as a text is encoded within the levels that a text may nest. -/
theorem depth_toJson_le {text : String} {d : Document} (h : parse? text = some d) :
    d.toJson.depth ≤ levelLimit := by
  obtain ⟨j, -, hj⟩ := Option.bind_eq_some_iff.1 h
  exact Faithful.bounds faithful_decoder levelLimit j d hj

theorem parse?_of_read {written : String} {d : Document} (hd : d.toJson.depth ≤ levelLimit)
    (h : Json.parse? written = some d.toJson) : parse? written = some d := by
  calc parse? written
    _ = Document.decoder levelLimit d.toJson := by rw [parse?, h, Option.bind_some]
    _ = some d := Faithful.undoes faithful_decoder levelLimit d hd

/-- Every document is decoded from its encoding, and every document that was accepted as a text is
accepted again from the text of its encoding, on one line or indented. -/
theorem decode_encode :
    (∀ d, ofJson? d.toJson = some d) ∧
      ∀ text d, parse? text = some d →
        parse? d.toJson.compact = some d ∧ parse? d.toJson.pretty = some d := by
  constructor
  · exact fun d => Faithful.undoes faithful_decoder d.toJson.depth d (Nat.le_refl _)
  · intro text d h
    have hdepth := depth_toJson_le h
    have hplain := Faithful.plain faithful_decoder d
    exact ⟨parse?_of_read hdepth (parse?_compact hplain),
      parse?_of_read hdepth (parse?_pretty hplain)⟩

/-- Fields in order, an array of rank one by default. -/
theorem decode_encode_fields_in_order : ∃ d,
    parse? "[[], [], [[\"Map\", null, [\x7b\"array\": \"int\"\x7d]]]]" = some d ∧
      parse? d.toJson.compact = some d ∧ parse? d.toJson.pretty = some d := by
  have haccepted :
      (parse? "[[], [], [[\"Map\", null, [\x7b\"array\": \"int\"\x7d]]]]").isSome = true := by
    decide +kernel
  obtain ⟨d, hd⟩ := Option.isSome_iff_exists.1 haccepted
  exact ⟨d, hd, decode_encode.2 _ d hd⟩

end Document

end EventWrap
