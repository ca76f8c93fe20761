import TimingReport.Proofs.TimingLog.Reading

/-!
# What is wrong with a row

A row that denotes no measurement has a first fault in a fixed order: bytes that are no text,
the number of fields, the index, the time, a time that is not finite.  The faults are told by
the grammar of fields and numbers, and a row is refused for exactly its first one.
-/

namespace TimingReport.TimingLog

open TimingReport.Fallible
open TimingReport.Number
open TimingReport.Text

/-- The bytes of a field are a text. -/
def IsText (field : List UInt8) : Prop := ∃ chars, field = utf8 chars

/-- An integer literal of 64 bits. -/
def IndexText (text : List Char) : Prop :=
  ∃ index, IntegerText text index ∧ -2 ^ 63 ≤ index ∧ index ≤ 2 ^ 63 - 1

/-- A decimal literal, or a word for infinity or for what is not a number. -/
inductive TimeText : List Char → Prop where
  | decimal {text : List Char} {negative : Bool} {magnitude : ℚ} :
      DecimalText text negative magnitude → TimeText text
  | word {sign letters : List Char} {negative : Bool} :
      SignText sign negative →
      letters.map Char.toLower ∈ ["inf".toList, "infinity".toList, "nan".toList] →
      TimeText (sign ++ letters)

/-- A decimal literal that is rounded to a finite double. -/
def FiniteTimeText (text : List Char) : Prop :=
  ∃ negative magnitude, DecimalText text negative magnitude ∧ magnitude < 2 ^ 1024 - 2 ^ 970

/-- The fault that is found first in the fields of a row: each case says that those in front
of it are absent. -/
inductive HasFault : List (List UInt8) → RowFault → Prop where
  | notText {before after : List (List UInt8)} {field : List UInt8} :
      (∀ other ∈ before, IsText other) → ¬IsText field →
      HasFault (before ++ field :: after)
        (.notText before.length (validLength (trimBoth isBlankByte field).toByteArray))
  | fieldCount {fields : List (List UInt8)} :
      (∀ field ∈ fields, IsText field) → fields.length ≠ 3 →
      HasFault fields (.fieldCount fields.length)
  | index {index tag time : List Char} {error : LiteralError} :
      ¬IndexText (trimBlanks index) → prefixedInteger64 (trimBlanks index) = .error error →
      HasFault [utf8 index, utf8 tag, utf8 time]
        (.badNumber ([index, tag, time].map (String.ofList ∘ trimBlanks)) .index error)
  | time {index tag time : List Char} {error : LiteralError} :
      IndexText (trimBlanks index) → ¬TimeText (trimBlanks time) →
      float (trimBlanks time) = .error error →
      HasFault [utf8 index, utf8 tag, utf8 time]
        (.badNumber ([index, tag, time].map (String.ofList ∘ trimBlanks)) .time error)
  | notFinite {index tag time : List Char} {x : Float} :
      IndexText (trimBlanks index) → TimeText (trimBlanks time) →
      ¬FiniteTimeText (trimBlanks time) → float (trimBlanks time) = .ok x →
      HasFault [utf8 index, utf8 tag, utf8 time] (.notFinite x)

/-! ## Fields -/

theorem exists_fieldText_iff (field : List UInt8) :
    (∃ text, fieldText field = .ok text) ↔ IsText field := by
  simp only [fieldText_ok_iff]
  constructor
  · rintro ⟨_, chars, hfield, -⟩
    exact ⟨chars, hfield⟩
  · rintro ⟨chars, hfield⟩
    exact ⟨_, chars, hfield, rfl⟩

theorem fieldText_error_iff (field : List UInt8) (length : Nat) :
    fieldText field = .error length ↔
      ¬IsText field ∧ length = validLength (trimBoth isBlankByte field).toByteArray := by
  rw [← exists_fieldText_iff, fieldText, decodeUtf8]
  cases String.fromUTF8? (trimBoth isBlankByte field).toByteArray with
  | none => simp [Except.map, eq_comm]
  | some text => simp [Except.map]

/-- The first field that is no text is told, with its place. -/
theorem fieldTexts_error_iff (place : Nat) (fields : List (List UInt8)) (fault : RowFault) :
    fieldTexts place fields = .error fault ↔
      ∃ before field after, fields = before ++ field :: after ∧
        (∀ other ∈ before, IsText other) ∧ ¬IsText field ∧
        fault = .notText (place + before.length)
          (validLength (trimBoth isBlankByte field).toByteArray) := by
  induction fields generalizing place with
  | nil =>
    refine iff_of_false (by simp [fieldTexts]) ?_
    rintro ⟨before, field, after, hfields, -⟩
    simp at hfields
  | cons field fields ih =>
    rw [fieldTexts]
    cases hfield : fieldText field with
    | error length =>
      obtain ⟨hnotText, rfl⟩ := (fieldText_error_iff field length).1 hfield
      constructor
      · intro hfault
        exact ⟨[], field, fields, rfl, by simp, hnotText, (Except.error.inj hfault).symm⟩
      · rintro ⟨_ | ⟨first, before⟩, other, after, hfields, hbefore, -, rfl⟩
        · obtain ⟨rfl, -⟩ := List.cons.inj hfields
          rfl
        · obtain ⟨rfl, -⟩ := List.cons.inj hfields
          exact absurd (hbefore field List.mem_cons_self) hnotText
    | ok text =>
      have htext : IsText field := (exists_fieldText_iff field).1 ⟨text, hfield⟩
      have hmap : (fieldTexts (place + 1) fields).map (text :: ·) = .error fault ↔
          fieldTexts (place + 1) fields = .error fault := by
        cases fieldTexts (place + 1) fields <;> simp [Except.map]
      simp only [hmap, ih]
      constructor
      · rintro ⟨before, other, after, rfl, hbefore, hother, rfl⟩
        refine ⟨field :: before, other, after, rfl, List.forall_mem_cons.2 ⟨htext, hbefore⟩,
          hother, ?_⟩
        rw [List.length_cons, Nat.add_right_comm, Nat.add_assoc]
      · rintro ⟨_ | ⟨first, before⟩, other, after, hfields, hbefore, hother, rfl⟩
        · obtain ⟨rfl, -⟩ := List.cons.inj hfields
          exact absurd htext hother
        · obtain ⟨rfl, rfl⟩ := List.cons.inj hfields
          refine ⟨before, other, after, rfl, (List.forall_mem_cons.1 hbefore).2, hother, ?_⟩
          rw [List.length_cons, Nat.add_right_comm, Nat.add_assoc]

theorem fieldTexts_utf8 (place : Nat) (fields : List (List Char)) :
    fieldTexts place (fields.map utf8) = .ok (fields.map (String.ofList ∘ trimBlanks)) := by
  rw [fieldTexts_ok_iff, List.forall₂_map_left_iff, List.forall₂_map_right_iff, List.forall₂_same]
  exact fun chars _ => (fieldText_ok_iff _ _).2 ⟨chars, rfl, rfl⟩

theorem exists_map_utf8_iff (fields : List (List UInt8)) :
    (∀ field ∈ fields, IsText field) ↔ ∃ texts : List (List Char), fields = texts.map utf8 := by
  constructor
  · intro htexts
    obtain ⟨texts, hall⟩ :=
      (exists_forall₂_iff (fun field chars => field = utf8 chars) fields).2 htexts
    refine ⟨texts, ?_⟩
    rw [← List.forall₂_eq_eq_eq, List.forall₂_map_right_iff]
    exact hall
  · rintro ⟨texts, rfl⟩ field hfield
    obtain ⟨chars, -, rfl⟩ := List.mem_map.1 hfield
    exact ⟨chars, rfl⟩

/-! ## Numbers -/

theorem exists_prefixedInteger64_iff (text : List Char) :
    (∃ index, prefixedInteger64 text = .ok index) ↔ IndexText text := by
  simp only [prefixedInteger64_ok_iff, IndexText]

/-- The words begin with a letter, so they are not taken for a sign. -/
theorem isWord_or_iff (letters : List Char) :
    letters.map Char.toLower ∈ ["inf".toList, "infinity".toList, "nan".toList] ↔
      (isWord "inf" letters || isWord "infinity" letters) = true ∨
        isWord "nan" letters = true := by
  simp [isWord, or_assoc]

theorem spanSign_word {sign letters : List Char} {negative : Bool} (hsign : SignText sign negative)
    (hletters : letters.map Char.toLower ∈ ["inf".toList, "infinity".toList, "nan".toList]) :
    spanSign (sign ++ letters) = (negative, letters) := by
  refine spanSign_append hsign fun c hc => ?_
  obtain ⟨rest, rfl⟩ := List.head?_eq_some_iff.1 hc
  constructor <;> rintro rfl <;> simp at hletters

theorem exists_float_iff (text : List Char) : (∃ x, float text = .ok x) ↔ TimeText text := by
  constructor
  · rintro ⟨x, hread⟩
    obtain ⟨sign, hsign, htext⟩ := spanSign_spec text
    rw [float] at hread
    simp only at hread
    split_ifs at hread with hempty hinfinity hnan
    · rw [htext]
      exact .word hsign ((isWord_or_iff _).2 (.inl hinfinity))
    · rw [htext]
      exact .word hsign ((isWord_or_iff _).2 (.inr hnan))
    · split at hread
      · next literal hliteral => exact .decimal (decimalText_iff.2 ⟨literal, hliteral, rfl, rfl⟩)
      · cases hread
  · rintro (@⟨_, negative, magnitude, hdecimal⟩ | ⟨hsign, hletters⟩)
    · obtain ⟨literal, hliteral, -⟩ := decimalText_iff.1 hdecimal
      exact ⟨_, float_eq_of_literal hliteral⟩
    · next sign letters negative =>
      have hnonempty : sign ++ letters ≠ [] := by
        intro hnil
        rw [(List.append_eq_nil_iff.1 hnil).2] at hletters
        simp at hletters
      rw [float, if_neg hnonempty, spanSign_word hsign hletters]
      simp only
      rcases (isWord_or_iff letters).1 hletters with hinfinity | hnan
      · exact ⟨_, if_pos hinfinity⟩
      · split_ifs
        · exact ⟨_, rfl⟩
        · exact ⟨_, rfl⟩

theorem isFinite_iff_finiteTimeText {text : List Char} {x : Float} (hread : float text = .ok x) :
    isFinite x = true ↔ FiniteTimeText text := by
  constructor
  · intro hfinite
    obtain ⟨negative, magnitude, hdecimal, hlimit, -⟩ :=
      (float_finite_iff text x).1 ⟨hread, hfinite⟩
    exact ⟨negative, magnitude, hdecimal, hlimit⟩
  · rintro ⟨negative, magnitude, hdecimal, hlimit⟩
    obtain ⟨y, hnearest, hsign⟩ := exists_isNearest hdecimal hlimit
    obtain ⟨hread', hfinite⟩ :=
      (float_finite_iff text y).2 ⟨negative, magnitude, hdecimal, hlimit, hnearest, hsign⟩
    rwa [Except.ok.inj (hread.symm.trans hread')]

/-! ## Rows -/

theorem utf8_injective : Function.Injective utf8 := by
  intro chars chars' hbytes
  have hdecoded : ∀ text, decodeUtf8 (utf8 text).toByteArray = .ok (String.ofList text) :=
    fun text => (decodeUtf8_ok_iff _ _).2 (by rw [String.toList_ofList])
  have htexts := (hdecoded chars).symm.trans (hbytes ▸ hdecoded chars')
  simpa using congrArg String.toList (Except.ok.inj htexts)

/-- Texts are refused for the first fault that is left when the bytes are checked. -/
theorem measurementOfTexts_error_iff (fields : List (List Char)) (fault : RowFault) :
    measurementOfTexts (fields.map (String.ofList ∘ trimBlanks)) = .error fault ↔
      HasFault (fields.map utf8) fault := by
  constructor
  · intro hfault
    have htexts := (exists_map_utf8_iff (fields.map utf8)).2 ⟨fields, rfl⟩
    obtain ⟨index, tag, time, rfl⟩ | hlength : (∃ index tag time, fields = [index, tag, time]) ∨
        fields.length ≠ 3 := by
      rw [← List.length_eq_three]
      exact em _
    · simp only [List.map_cons, List.map_nil, Function.comp, measurementOfTexts,
        String.toList_ofList] at hfault
      cases hindex : prefixedInteger64 (trimBlanks index) with
      | error error =>
        have hnot : ¬IndexText (trimBlanks index) := by
          simp [← exists_prefixedInteger64_iff, hindex]
        rw [hindex] at hfault
        obtain rfl := Except.error.inj hfault
        exact .index hnot hindex
      | ok value =>
        have hindexText := (exists_prefixedInteger64_iff _).1 ⟨value, hindex⟩
        cases htime : float (trimBlanks time) with
        | error error =>
          have hnot : ¬TimeText (trimBlanks time) := by simp [← exists_float_iff, htime]
          rw [hindex, htime] at hfault
          obtain rfl := Except.error.inj hfault
          exact .time hindexText hnot htime
        | ok x =>
          simp only [hindex, htime] at hfault
          split_ifs at hfault with hfinite
          obtain rfl := Except.error.inj hfault
          refine .notFinite hindexText ((exists_float_iff _).1 ⟨x, htime⟩) ?_ htime
          rwa [← isFinite_iff_finiteTimeText htime]
    · rw [measurementOfTexts.eq_def] at hfault
      split at hfault
      · next hfields => exact absurd (by simpa using congrArg List.length hfields) hlength
      · obtain rfl := Except.error.inj hfault
        have hcount := HasFault.fieldCount htexts (by rwa [List.length_map])
        rwa [List.length_map] at hcount ⊢
  · generalize hbytes : fields.map utf8 = bytes
    have hthree :
        ∀ {index tag time : List Char}, fields.map utf8 = [utf8 index, utf8 tag, utf8 time] →
        fields = [index, tag, time] := fun h => List.map_injective_iff.2 utf8_injective h
    intro hfault
    cases hfault with
    | notText _ hfield =>
      exact absurd ((exists_map_utf8_iff _).2 ⟨fields, hbytes.symm⟩ _ (by simp)) hfield
    | fieldCount _ hlength =>
      rw [← hbytes, List.length_map] at hlength ⊢
      rw [measurementOfTexts.eq_def]
      split
      · next hfields => exact absurd (by simpa using congrArg List.length hfields) hlength
      · rw [List.length_map]
    | index _ herror =>
      rw [hthree hbytes]
      simp [measurementOfTexts, herror]
    | time hindex _ herror =>
      obtain ⟨value, hvalue⟩ := (exists_prefixedInteger64_iff _).2 hindex
      rw [hthree hbytes]
      simp [measurementOfTexts, hvalue, herror]
    | notFinite hindex _ hnot hread =>
      obtain ⟨value, hvalue⟩ := (exists_prefixedInteger64_iff _).2 hindex
      rw [← isFinite_iff_finiteTimeText hread] at hnot
      rw [hthree hbytes]
      simp [measurementOfTexts, hvalue, hread, hnot]

/-- A row is refused for the first fault of its fields. -/
theorem measurement_error_iff (row : Row) (fault : RowFault) :
    row.measurement = .error fault ↔ HasFault row.fields fault := by
  rw [Row.measurement]
  by_cases htexts : ∀ field ∈ row.fields, IsText field
  · obtain ⟨texts, hfields⟩ := (exists_map_utf8_iff _).1 htexts
    rw [hfields, fieldTexts_utf8]
    exact measurementOfTexts_error_iff texts fault
  · have hnotOk : ¬∃ texts, fieldTexts 0 row.fields = .ok texts := by
      simp only [fieldTexts_ok_iff, exists_forall₂_iff, exists_fieldText_iff]
      exact htexts
    rw [bind_error_iff, fieldTexts_error_iff]
    constructor
    · rintro (⟨before, field, after, hfields, hbefore, hfield, rfl⟩ | ⟨texts, hok, -⟩)
      · rw [hfields, Nat.zero_add]
        exact .notText hbefore hfield
      · exact absurd ⟨texts, hok⟩ hnotOk
    · generalize row.fields = fields at htexts
      intro hfault
      cases hfault with
      | notText hbefore hfield =>
        exact .inl ⟨_, _, _, rfl, hbefore, hfield, by rw [Nat.zero_add]⟩
      | fieldCount hall _ => exact absurd hall htexts
      | index | time | notFinite =>
        exact absurd ((exists_map_utf8_iff _).2 ⟨[_, _, _], rfl⟩) htexts

theorem Denotes.length_fields {fields : List (List UInt8)} {measurement : Measurement}
    (hmeasurement : Denotes fields measurement) : fields.length = 3 := by
  obtain ⟨index, tag, time⟩ := measurement
  obtain ⟨_, _, hmeaning, -⟩ := hmeasurement
  cases hmeaning
  rfl

/-- Fields with a fault denote nothing. -/
theorem not_denotes_of_hasFault {fields : List (List UInt8)} {fault : RowFault}
    (hfault : HasFault fields fault) : ¬∃ measurement, Denotes fields measurement := by
  rintro ⟨measurement, hmeasurement⟩
  have hok := (measurement_ok_iff ⟨⟨0, 1, 0⟩, fields⟩ measurement).2 hmeasurement
  have herror := (measurement_error_iff ⟨⟨0, 1, 0⟩, fields⟩ fault).2 hfault
  rw [hok] at herror
  cases herror

theorem judged_error_iff (row : Row) (failure : ReadFault) :
    row.judged = .error failure ↔
      ∃ fault, HasFault row.fields fault ∧ failure = .badRow row.start fault := by
  rw [Row.judged, mapError_error_iff]
  exact exists_congr fun fault => and_congr (measurement_error_iff row fault) eq_comm

end TimingReport.TimingLog
