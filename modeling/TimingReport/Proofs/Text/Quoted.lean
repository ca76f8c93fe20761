import TimingReport.Proofs.Json.Unambiguous
import TimingReport.Text.Quoted

/-!
# Quoted texts read back

A character stands in a quoted text for itself, behind a backslash by a letter, or by its code
point in braces.  A backslash begins an escape and nothing else, a letter or a closing brace
ends it, and a bare quote ends the text; so a quoted text is told apart from whatever follows
it, and it stands for one text.
-/

namespace TimingReport.Text

open TimingReport.Number

/-! ## Digits in base sixteen -/

theorem digitValue?_digitChar :
    ∀ digit < 16, digitValue? 16 (Nat.digitChar digit) = some digit := by
  decide

/-- By strong induction: the digits of a number are those of its sixteenth and one more. -/
theorem numeral_toDigits (n : Nat) : Numeral 16 (Nat.toDigits 16 n) n := by
  induction n using Nat.strong_induction_on with
  | _ n ih =>
    rw [Nat.toDigits_eq_if (by decide)]
    split
    · next hsmall => simpa using Numeral.snoc .nil (digitValue?_digitChar n hsmall)
    · next hlarge =>
      have hdigits := (ih (n / 16) (Nat.div_lt_self (by omega) (by decide))).snoc
        (digitValue?_digitChar (n % 16) (Nat.mod_lt n (by decide)))
      rwa [Nat.div_add_mod'] at hdigits

theorem ne_brace_of_mem {digits : List Char} {n : Nat} (hnumeral : Numeral 16 digits n) :
    ∀ c ∈ digits, decide (c ≠ '\x7d') = true := by
  intro c hc
  obtain ⟨digit, hdigit⟩ := hnumeral.exists_digitValue? c hc
  rw [decide_eq_true_iff]
  rintro rfl
  cases hdigit

/-! ## Characters -/

/-- The characters with a short escape, and the letter that stands for them. -/
def shortEscapes : List (Char × Char) :=
  [('"', '"'), ('\\', '\\'), ('\t', 't'), ('\n', 'n'), ('\r', 'r'), ('\x00', '0')]

/-- What may stand for a character in a quoted text. -/
inductive QuotedForm : Char → List Char → Prop where
  | plain {c : Char} : c ≠ '"' → c ≠ '\\' → QuotedForm c [c]
  | short {c letter : Char} : (c, letter) ∈ shortEscapes → QuotedForm c ['\\', letter]
  | code {c : Char} {digits : List Char} :
      Numeral 16 digits c.toNat → QuotedForm c ('\\' :: 'u' :: '{' :: (digits ++ ['\x7d']))

theorem quotedForm_quotedChar (c : Char) : QuotedForm c (quotedChar c) := by
  rw [quotedChar]
  split_ifs with hquote hbackslash htab hlineFeed hcarriageReturn hzero hcode
  · obtain rfl := hquote
    exact .short (by decide)
  · obtain rfl := hbackslash
    exact .short (by decide)
  · obtain rfl := htab
    exact .short (by decide)
  · obtain rfl := hlineFeed
    exact .short (by decide)
  · obtain rfl := hcarriageReturn
    exact .short (by decide)
  · obtain rfl : c = '\x00' := Char.toNat_inj.1 hzero
    exact .short (by decide)
  · exact .code (numeral_toDigits c.toNat)
  · exact .plain hquote hbackslash

namespace QuotedForm

variable {c c' : Char} {text text' rest rest' : List Char}

/-- No character is taken for the quote that ends the text. -/
theorem append_ne_quote (hform : QuotedForm c text) : text ++ rest ≠ '"' :: rest' := by
  intro heq
  cases hform with
  | plain hquote => exact hquote (List.cons.inj heq).1
  | short | code => exact absurd (List.cons.inj heq).1 (by decide)

/-- Of what follows a character, nothing is taken for a part of it. -/
theorem unique (hform : QuotedForm c text) (hother : QuotedForm c' text')
    (heq : text ++ rest = text' ++ rest') : c = c' ∧ rest = rest' := by
  have htable : ∀ entry ∈ shortEscapes, entry.2 ≠ 'u' ∧
      ∀ other ∈ shortEscapes, entry.2 = other.2 → entry.1 = other.1 := by decide
  cases hform with
  | plain _ hbackslash =>
    cases hother with
    | plain => exact List.cons.inj heq
    | short | code => exact absurd (List.cons.inj heq).1 hbackslash
  | short hletter =>
    cases hother with
    | plain _ hbackslash => exact absurd (List.cons.inj heq).1.symm hbackslash
    | short hletter' =>
      obtain ⟨hsame, hrest⟩ := List.cons.inj (List.cons.inj heq).2
      exact ⟨(htable _ hletter).2 _ hletter' hsame, hrest⟩
    | code => exact absurd (List.cons.inj (List.cons.inj heq).2).1 (htable _ hletter).1
  | code hdigits =>
    cases hother with
    | plain _ hbackslash => exact absurd (List.cons.inj heq).1.symm hbackslash
    | short hletter =>
      exact absurd (List.cons.inj (List.cons.inj heq).2).1.symm (htable _ hletter).1
    | code hdigits' =>
      simp only [List.cons_append, List.append_assoc, List.cons.injEq, true_and] at heq
      obtain ⟨rfl, hbrace⟩ := Json.eq_of_append_eq (ne_brace_of_mem hdigits)
        (ne_brace_of_mem hdigits') (by simp) (by simp) heq
      exact ⟨Char.toNat_inj.1 (hdigits.unique hdigits'), (List.cons.inj hbrace).2⟩

end QuotedForm

/-! ## Texts -/

/-- By induction on one of the texts: their characters agree one by one, up to the quote. -/
theorem eq_of_flatMap_quotedChar {text text' rest rest' : List Char}
    (heq : text.flatMap quotedChar ++ '"' :: rest = text'.flatMap quotedChar ++ '"' :: rest') :
    text = text' ∧ rest = rest' := by
  induction text generalizing text' with
  | nil =>
    cases text' with
    | nil => exact ⟨rfl, (List.cons.inj heq).2⟩
    | cons c text' =>
      rw [List.flatMap_cons, List.append_assoc] at heq
      exact absurd heq.symm (quotedForm_quotedChar c).append_ne_quote
  | cons c text ih =>
    rw [List.flatMap_cons, List.append_assoc] at heq
    cases text' with
    | nil => exact absurd heq (quotedForm_quotedChar c).append_ne_quote
    | cons c' text' =>
      rw [List.flatMap_cons, List.append_assoc] at heq
      obtain ⟨rfl, hbehind⟩ := (quotedForm_quotedChar c).unique (quotedForm_quotedChar c') heq
      obtain ⟨rfl, hrest⟩ := ih hbehind
      exact ⟨rfl, hrest⟩

/-- A quoted text stands for one text, and its end does not depend on what follows. -/
theorem eq_of_quotedChars_append {text text' rest rest' : List Char}
    (heq : quotedChars text ++ rest = quotedChars text' ++ rest') :
    text = text' ∧ rest = rest' := by
  simp only [quotedChars, List.cons_append, List.append_assoc, List.nil_append] at heq
  exact eq_of_flatMap_quotedChar (List.cons.inj heq).2

end TimingReport.Text
