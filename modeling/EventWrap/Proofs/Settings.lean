import EventWrap.Proofs.Document.Resolving
import EventWrap.Proofs.Text.Lines
import EventWrap.Settings

/-!
# Names of valid settings

Valid settings name things by identifiers, which have no line feeds.
-/

namespace EventWrap.Settings

open Text

theorem not_mem_of_isIdentifier {chars : List Char} (h : isIdentifier chars) : '\n' ∉ chars := by
  have hletter : isAlphabetic '\n' = false := by decide
  have hsign : isAlphanumeric '\n' = false := by decide
  cases chars with
  | nil => exact List.not_mem_nil
  | cons first rest =>
    rw [isIdentifier, Bool.and_eq_true] at h
    intro hmem
    rcases List.mem_cons.1 hmem with rfl | hmem
    · simp [hletter] at h
    · have hrest := List.all_eq_true.1 h.2 _ hmem
      simp [hsign] at hrest

theorem exists_segment_of_mem {c : Char} (hc : c ≠ '.') {chars : List Char} (h : c ∈ chars) :
    ∃ segment ∈ segments chars, c ∈ segment := by
  fun_induction segments chars with
  | case1 => cases h
  | case2 rest ih =>
    obtain ⟨segment, hsegment, hmem⟩ := ih ((List.mem_cons.1 h).resolve_left hc)
    exact ⟨segment, List.mem_cons_of_mem _ hsegment, hmem⟩
  | case3 d rest hdot hnone ih =>
    rcases List.mem_cons.1 h with rfl | h
    · exact ⟨_, List.mem_cons_self, List.mem_cons_self⟩
    · obtain ⟨segment, hsegment, -⟩ := ih h
      rw [hnone] at hsegment
      cases hsegment
  | case4 d rest hdot first others hsegments ih =>
    rcases List.mem_cons.1 h with rfl | h
    · exact ⟨_, List.mem_cons_self, List.mem_cons_self⟩
    · obtain ⟨segment, hsegment, hmem⟩ := ih h
      rw [hsegments] at hsegment
      rcases List.mem_cons.1 hsegment with rfl | hsegment
      · exact ⟨_, List.mem_cons_self, List.mem_cons_of_mem _ hmem⟩
      · exact ⟨segment, List.mem_cons_of_mem _ hsegment, hmem⟩

theorem not_mem_of_isDottedName {chars : List Char} (h : isDottedName chars) : '\n' ∉ chars := by
  intro hmem
  obtain ⟨segment, hsegment, hfeed⟩ := exists_segment_of_mem (by decide) hmem
  exact not_mem_of_isIdentifier (List.all_eq_true.1 h segment hsegment) hfeed

theorem mem_stripGlobal {chars : List Char} (h : '\n' ∈ chars) : '\n' ∈ stripGlobal chars := by
  unfold stripGlobal
  split
  · simpa using h
  · exact h

/-- Settings whose names are on one line. -/
structure HasOneLineNames (s : Settings) : Prop where
  extensionsNamespace : IsOneLine s.extensionsNamespace
  extensionsClass : IsOneLine s.extensionsClass
  factoryMethod : IsOneLine s.factoryMethod
  staticAttribute : IsOneLine s.staticAttribute
  reactive : ∀ field ∈ s.reactive.fields, IsOneLine field.2

theorem requireThat_bind_eq_ok_iff {holds : Bool} {field value : String}
    {rest : Unit → Except SettingsError Unit} :
    (requireThat holds field value >>= rest) = .ok () ↔ holds ∧ rest () = .ok () := by
  cases holds with
  | true => exact (and_iff_right rfl).symm
  | false => exact iff_of_false nofun (fun h => nomatch h.1)

theorem forM_requireThat_eq_ok_iff (fields : List (String × String))
    (f : String × String → Bool) :
    (fields.forM fun field => requireThat (f field) field.1 field.2) = .ok () ↔
      ∀ field ∈ fields, f field := by
  induction fields with
  | nil => exact iff_of_true rfl (List.forall_mem_nil _)
  | cons first rest ih =>
    rw [List.forall_mem_cons, ← ih]
    exact requireThat_bind_eq_ok_iff

theorem validate_eq_ok_iff {s : Settings} : s.validate = .ok () ↔
    (s.extensionsNamespace = "" ∨ isDottedName s.extensionsNamespace.toList) ∧
      isIdentifier s.extensionsClass.toList ∧ isIdentifier s.factoryMethod.toList ∧
      isIdentifier s.staticAttribute.toList ∧ s.extensionsClass ≠ s.staticAttribute ∧
      ∀ field ∈ s.reactive.fields, isDottedName (stripGlobal field.2.toList) := by
  have hfields := forM_requireThat_eq_ok_iff s.reactive.fields
    fun field => isDottedName (stripGlobal field.2.toList)
  rw [← hfields, validate, requireThat_bind_eq_ok_iff, requireThat_bind_eq_ok_iff,
    requireThat_bind_eq_ok_iff, requireThat_bind_eq_ok_iff]
  refine and_congr ?_
    (and_congr_right fun _ => and_congr_right fun _ => and_congr_right fun _ => ?_)
  · rw [Bool.or_eq_true, String.isEmpty_iff]
  · by_cases hsame : s.extensionsClass = s.staticAttribute
    · exact iff_of_false (fun h => by rw [if_pos hsame] at h; cases h) (fun h => h.1 hsame)
    · rw [and_iff_right hsame, if_neg hsame]

theorem hasOneLineNames {s : Settings} (h : s.validate = .ok ()) : s.HasOneLineNames := by
  obtain ⟨hspace, hclass, hmethod, hattribute, -, hfields⟩ := validate_eq_ok_iff.1 h
  refine ⟨?_, not_mem_of_isIdentifier hclass, not_mem_of_isIdentifier hmethod,
    not_mem_of_isIdentifier hattribute, fun field hfield hmem => ?_⟩
  · rcases hspace with hnothing | hdotted
    · rw [hnothing]
      decide
    · exact not_mem_of_isDottedName hdotted
  · exact not_mem_of_isDottedName (hfields field hfield) (mem_stripGlobal hmem)

end EventWrap.Settings
