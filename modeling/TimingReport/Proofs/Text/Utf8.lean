import Mathlib.Data.List.TakeWhile
import TimingReport.TimingLog.Measurement

/-!
# Fields as texts

A field is trimmed twice, of some blanks as bytes and then of all blanks as characters.
Bytes of one character are blank together or not at all, so a field is a text before the
first trimming exactly if it is one behind it, and the first trimming changes nothing
that the second one would not.
-/

namespace TimingReport.Text

/-- The bytes of a text. -/
def utf8 (chars : List Char) : List UInt8 := chars.flatMap String.utf8EncodeChar

theorem utf8_append (left right : List Char) : utf8 (left ++ right) = utf8 left ++ utf8 right :=
  List.flatMap_append

theorem toUTF8_eq (text : String) : text.toUTF8 = (utf8 text.toList).toByteArray := by
  rw [String.toUTF8_eq_toByteArray, ← String.utf8Encode_toList]
  rfl

theorem decodeUtf8_ok_iff (bytes : List UInt8) (text : String) :
    decodeUtf8 bytes.toByteArray = .ok text ↔ bytes = utf8 text.toList := by
  constructor
  · intro hdecoded
    have hbytes : bytes.toByteArray = text.toUTF8 := by
      rw [decodeUtf8, String.fromUTF8?] at hdecoded
      by_cases hvalid : bytes.toByteArray.IsValidUTF8
      · rw [dif_pos hvalid] at hdecoded
        rw [← Except.ok.inj hdecoded]
        rfl
      · rw [dif_neg hvalid] at hdecoded
        cases hdecoded
    rw [toUTF8_eq] at hbytes
    exact List.toByteArray_inj.1 hbytes
  · rintro rfl
    rw [← toUTF8_eq, decodeUtf8_toUTF8]

/-! ## Trimming -/

theorem exists_trimBoth_eq {α : Type} (drop : α → Bool) (items : List α) :
    ∃ front back, items = front ++ (trimBoth drop items ++ back) ∧
      (∀ x ∈ front, drop x = true) ∧ ∀ x ∈ back, drop x = true := by
  refine ⟨items.takeWhile drop, ((items.dropWhile drop).reverse.takeWhile drop).reverse,
    ?_, fun x => List.mem_takeWhile_imp, fun x hx => ?_⟩
  · rw [trimBoth, ← List.reverse_append, List.takeWhile_append_dropWhile, List.reverse_reverse,
      List.takeWhile_append_dropWhile]
  · exact List.mem_takeWhile_imp (List.mem_reverse.1 hx)

/-- Trimming less before makes no difference. -/
theorem trimBoth_trimBoth {α : Type} {fewer drop : α → Bool}
    (hfewer : ∀ x, fewer x = true → drop x = true) (items : List α) :
    trimBoth drop (trimBoth fewer items) = trimBoth drop items := by
  obtain ⟨front, back, hitems, hfront, hback⟩ := exists_trimBoth_eq fewer items
  calc trimBoth drop (trimBoth fewer items)
      = trimBoth drop (trimBoth fewer items ++ back) :=
        (trimBoth_append_right drop (fun x hx => hfewer x (hback x hx)) _).symm
    _ = trimBoth drop (front ++ (trimBoth fewer items ++ back)) :=
        (trimBoth_append_left drop (fun x hx => hfewer x (hfront x hx)) _).symm
    _ = trimBoth drop items := by rw [← hitems]

/-- An item is expanded into parts that are dropped together or not at all. -/
structure Uniform {α β : Type} (drop : β → Bool) (expand : α → List β) : Prop where
  nonempty : ∀ x, expand x ≠ []
  together : ∀ x, (∀ y ∈ expand x, drop y = true) ∨ ∀ y ∈ expand x, drop y = false

namespace Uniform

variable {α β : Type} {drop : β → Bool} {expand : α → List β}

theorem reverse (huniform : Uniform drop expand) : Uniform drop fun x => (expand x).reverse := by
  refine ⟨fun x h => huniform.nonempty x (List.reverse_eq_nil_iff.1 h), fun x => ?_⟩
  simpa only [List.mem_reverse] using huniform.together x

theorem dropWhile_flatMap (huniform : Uniform drop expand) (items : List α) :
    (items.flatMap expand).dropWhile drop =
      (items.dropWhile fun x => (expand x).all drop).flatMap expand := by
  induction items with
  | nil => rfl
  | cons x items ih =>
    rw [List.flatMap_cons]
    rcases huniform.together x with hdropped | hkept
    · rw [List.dropWhile_append_of_pos hdropped, ih, List.dropWhile_cons_of_pos]
      exact List.all_eq_true.2 hdropped
    · obtain ⟨y, rest, hexpand⟩ := List.exists_cons_of_ne_nil (huniform.nonempty x)
      have hy := hkept y (by simp [hexpand])
      rw [List.dropWhile_cons_of_neg, List.flatMap_cons, hexpand, List.cons_append,
        List.dropWhile_cons_of_neg]
      · simp [hy]
      · simp [hexpand, hy]

theorem trimBoth_flatMap (huniform : Uniform drop expand) (items : List α) :
    trimBoth drop (items.flatMap expand) =
      (trimBoth (fun x => (expand x).all drop) items).flatMap expand := by
  have hall : (fun x => ((expand x).reverse).all drop) = fun x => (expand x).all drop := by
    funext x
    rw [List.all_reverse]
  have hreverse := huniform.reverse.dropWhile_flatMap
    (items.dropWhile fun x => (expand x).all drop).reverse
  rw [hall] at hreverse
  rw [trimBoth, trimBoth, huniform.dropWhile_flatMap, List.reverse_flatMap]
  change List.reverse (List.dropWhile drop (List.flatMap (fun x => (expand x).reverse) _)) = _
  rw [hreverse, List.reverse_flatMap]
  congr 1
  funext x
  exact List.reverse_reverse _

end Uniform

/-! ## Blanks as bytes -/

open TimingReport.TimingLog (isBlankByte fieldText)

theorem utf8EncodeChar_of_lt {c : Char} (hascii : c.toNat < 128) :
    String.utf8EncodeChar c = [UInt8.ofNat c.toNat] := by
  rw [String.utf8EncodeChar]
  exact if_pos (Nat.lt_succ_iff.1 hascii)

theorem le_of_mem_utf8EncodeChar {c : Char} (hother : 128 ≤ c.toNat) :
    ∀ byte ∈ String.utf8EncodeChar c, 128 ≤ byte.toNat := by
  intro byte hbyte
  have hval : c.val.toNat = c.toNat := rfl
  simp only [String.utf8EncodeChar, hval] at hbyte
  split_ifs at hbyte with hone
  · omega
  all_goals
    simp only [List.mem_cons, List.not_mem_nil, or_false] at hbyte
    rcases hbyte with rfl | rfl | rfl | rfl <;> rw [UInt8.toNat_ofNat'] <;> omega

theorem isBlankByte_iff (byte : UInt8) :
    isBlankByte byte = true ↔ byte.toNat ∈ [32, 9, 10, 12, 13] := by
  simp [isBlankByte, ← UInt8.toNat_inj, or_assoc]

theorem isBlankByte_eq_false_of_le {byte : UInt8} (hother : 128 ≤ byte.toNat) :
    isBlankByte byte = false := by
  rw [Bool.eq_false_iff, Ne, isBlankByte_iff]
  simp only [List.mem_cons, List.not_mem_nil, or_false]
  omega

theorem mem_utf8_of_lt {chars : List Char} {byte : UInt8} (hbyte : byte ∈ utf8 chars)
    (hascii : byte.toNat < 128) : ∃ c ∈ chars, c.toNat = byte.toNat := by
  obtain ⟨c, hc, hmem⟩ := List.mem_flatMap.1 hbyte
  rcases Nat.lt_or_ge c.toNat 128 with hsmall | hlarge
  · rw [utf8EncodeChar_of_lt hsmall, List.mem_singleton] at hmem
    refine ⟨c, hc, ?_⟩
    rw [hmem, UInt8.toNat_ofNat_of_lt' (hsmall.trans (by decide))]
  · exact absurd (le_of_mem_utf8EncodeChar hlarge byte hmem) (by omega)

/-- A byte of an ASCII character is missing where the character is. -/
theorem ne_of_mem_utf8 {chars : List Char} {special : Char} (hascii : special.toNat < 128)
    (hmissing : special ∉ chars) {byte : UInt8} (hbyte : byte ∈ utf8 chars) :
    byte ≠ UInt8.ofNat special.toNat := by
  rintro rfl
  have hvalue : (UInt8.ofNat special.toNat).toNat = special.toNat :=
    UInt8.toNat_ofNat_of_lt' (hascii.trans (by decide))
  obtain ⟨c, hc, hsame⟩ := mem_utf8_of_lt hbyte (by rwa [hvalue])
  rw [hvalue] at hsame
  exact hmissing (Char.toNat_inj.1 hsame ▸ hc)

theorem uniform_utf8EncodeChar : Uniform isBlankByte String.utf8EncodeChar := by
  refine ⟨fun c => String.utf8EncodeChar_ne_nil, fun c => ?_⟩
  rcases Nat.lt_or_ge c.toNat 128 with hascii | hother
  · rw [utf8EncodeChar_of_lt hascii]
    simp only [List.mem_singleton, forall_eq]
    cases isBlankByte (UInt8.ofNat c.toNat) <;> simp
  · exact .inr fun byte hbyte =>
      isBlankByte_eq_false_of_le (le_of_mem_utf8EncodeChar hother byte hbyte)

theorem isBlank_of_all {c : Char} (hall : (String.utf8EncodeChar c).all isBlankByte = true) :
    isBlank c = true := by
  rcases Nat.lt_or_ge c.toNat 128 with hascii | hother
  · rw [utf8EncodeChar_of_lt hascii, List.all_cons, List.all_nil, Bool.and_true, isBlankByte_iff,
      UInt8.toNat_ofNat_of_lt' (hascii.trans (by decide))] at hall
    simp only [List.mem_cons, List.not_mem_nil, or_false] at hall
    rw [isBlank, inRanges, List.any_eq_true]
    rcases hall with h | h | h | h | h
    · exact ⟨(32, 32), by decide, by simp [CodeRange.contains, h]⟩
    all_goals exact ⟨(9, 13), by decide, by simp [CodeRange.contains, h]⟩
  · obtain ⟨byte, rest, hencoded⟩ := List.exists_cons_of_ne_nil (@String.utf8EncodeChar_ne_nil c)
    have hbyte := le_of_mem_utf8EncodeChar hother byte (by simp [hencoded])
    rw [hencoded, List.all_cons, isBlankByte_eq_false_of_le hbyte] at hall
    cases hall

/-- Blank bytes are the bytes of blank characters. -/
theorem exists_blanks {bytes : List UInt8} (hbytes : ∀ byte ∈ bytes, isBlankByte byte = true) :
    ∃ chars, bytes = utf8 chars ∧ ∀ c ∈ chars, isBlank c = true := by
  induction bytes with
  | nil => exact ⟨[], rfl, by simp⟩
  | cons byte bytes ih =>
    obtain ⟨chars, rfl, hchars⟩ := ih fun b hb => hbytes b (List.mem_cons_of_mem _ hb)
    have hbyte := hbytes byte List.mem_cons_self
    have hsmall : byte.toNat < 128 := by
      rw [isBlankByte_iff] at hbyte
      simp only [List.mem_cons, List.not_mem_nil, or_false] at hbyte
      omega
    have hchar : (Char.ofNat byte.toNat).toNat = byte.toNat := by
      rw [Char.ofNat, dif_pos (.inl (by omega))]
      rfl
    have hencoded : String.utf8EncodeChar (Char.ofNat byte.toNat) = [byte] := by
      rw [utf8EncodeChar_of_lt (by omega), hchar, UInt8.ofNat_toNat]
    refine ⟨Char.ofNat byte.toNat :: chars, ?_, ?_⟩
    · change _ = String.utf8EncodeChar (Char.ofNat byte.toNat) ++ utf8 chars
      rw [hencoded]
      rfl
    · intro c hc
      rcases List.mem_cons.1 hc with rfl | hrest
      · exact isBlank_of_all (by simp [hencoded, hbyte])
      · exact hchars c hrest

/-- A field is read as the text that its bytes are, trimmed of all blanks. -/
theorem fieldText_ok_iff (field : List UInt8) (text : String) :
    fieldText field = .ok text ↔
      ∃ chars, field = utf8 chars ∧ text = String.ofList (trimBlanks chars) := by
  have hdecoded : fieldText field = .ok text ↔
      ∃ trimmed, trimBoth isBlankByte field = utf8 trimmed ∧
        text = String.ofList (trimBlanks trimmed) := by
    rw [fieldText]
    constructor
    · intro hread
      cases hdecode : decodeUtf8 (trimBoth isBlankByte field).toByteArray with
      | error length => simp [hdecode, Except.map] at hread
      | ok decoded =>
        rw [hdecode] at hread
        exact ⟨_, (decodeUtf8_ok_iff _ _).1 hdecode, (Except.ok.inj hread).symm⟩
    · rintro ⟨trimmed, htrimmed, rfl⟩
      rw [(decodeUtf8_ok_iff _ (String.ofList trimmed)).2 (by rw [htrimmed, String.toList_ofList]),
        Except.map, String.toList_ofList]
  rw [hdecoded]
  constructor
  · rintro ⟨trimmed, htrimmed, rfl⟩
    obtain ⟨front, back, hfield, hfront, hback⟩ := exists_trimBoth_eq isBlankByte field
    obtain ⟨frontChars, rfl, hfrontChars⟩ := exists_blanks hfront
    obtain ⟨backChars, rfl, hbackChars⟩ := exists_blanks hback
    refine ⟨frontChars ++ (trimmed ++ backChars), ?_, ?_⟩
    · rw [hfield, htrimmed, utf8_append, utf8_append]
    · rw [trimBlanks, trimBlanks, trimBoth_append_left _ hfrontChars,
        trimBoth_append_right _ hbackChars]
  · rintro ⟨chars, rfl, rfl⟩
    refine ⟨trimBoth (fun c => (String.utf8EncodeChar c).all isBlankByte) chars,
      uniform_utf8EncodeChar.trimBoth_flatMap chars, ?_⟩
    rw [trimBlanks, trimBlanks, trimBoth_trimBoth fun c => isBlank_of_all]

end TimingReport.Text
