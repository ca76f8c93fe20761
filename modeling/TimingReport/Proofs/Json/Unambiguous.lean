import TimingReport.Proofs.Json.Grammar
import TimingReport.Proofs.Number.Decimal

/-!
# A JSON text stands for one value

The first character of a value tells its kind, and each part of a text ends where the next
character cannot belong to it.  So of one input, two phrases of a sort that end where they must
are the same and leave the same rest.
-/

namespace TimingReport.Json

open TimingReport.Number

/-- What is in front is told apart from what follows by the characters of both. -/
theorem eq_of_append_eq {inside : Char → Bool} {left right rest rest' : List Char}
    (hleft : ∀ c ∈ left, inside c = true) (hright : ∀ c ∈ right, inside c = true)
    (hrest : ∀ c ∈ rest.head?, inside c = false) (hrest' : ∀ c ∈ rest'.head?, inside c = false)
    (heq : left ++ rest = right ++ rest') : left = right ∧ rest = rest' := by
  have hdrop : ∀ rest : List Char, (∀ c ∈ rest.head?, inside c = false) →
      rest.dropWhile inside = rest := by
    intro rest hhead
    cases rest with
    | nil => rfl
    | cons c rest => exact List.dropWhile_cons_of_neg (by simp [hhead c rfl])
  have hsame := congrArg (List.dropWhile inside) heq
  rw [List.dropWhile_append_of_pos hleft, List.dropWhile_append_of_pos hright, hdrop _ hrest,
    hdrop _ hrest'] at hsame
  subst hsame
  exact ⟨List.append_cancel_right heq, rfl⟩

/-! ## Numbers -/

def isNumberChar (c : Char) : Bool :=
  isDecimalDigit c || c = '-' || c = '+' || c = '.' || c = 'e' || c = 'E'

theorem isNumberChar_of_digit {c : Char} (hc : isDecimalDigit c = true) :
    isNumberChar c = true := by
  simp [isNumberChar, hc]

theorem isNumberChar_of_mem_exponentText {tail : List Char} {exponent : Int}
    (htail : ExponentText tail exponent) : ∀ c ∈ tail, isNumberChar c = true := by
  cases htail with
  | absent => simp
  | power hmark hsigned =>
    intro c hc
    rcases List.mem_cons.1 hc with rfl | hc
    · rcases hmark with rfl | rfl <;> rfl
    · obtain ⟨hsign, -, hnumeral⟩ := hsigned
      rcases List.mem_append.1 hc with hc | hc
      · cases hsign with
        | absent => cases hc
        | plus => exact List.mem_singleton.1 hc ▸ rfl
        | minus => exact List.mem_singleton.1 hc ▸ rfl
      · exact isNumberChar_of_digit ((numeral_ten_iff.1 hnumeral).1 c hc)

theorem MinusText.signText {sign : List Char} {negative : Bool} (hsign : MinusText sign negative) :
    SignText sign negative := by
  cases hsign with
  | absent => exact .absent
  | minus => exact .minus

namespace NumberText

variable {text : List Char} {negative : Bool} {magnitude : ℚ}

theorem isNumberChar_of_mem (htext : NumberText text negative magnitude) :
    ∀ c ∈ text, isNumberChar c = true := by
  cases htext with
  | intro hsign _ _ hfraction _ hnumeral htail =>
    have hdigits := (numeral_ten_iff.1 hnumeral).1
    intro c hc
    simp only [List.mem_append] at hc hdigits
    rcases hc with hc | hc | hc | hc
    · cases hsign with
      | absent => cases hc
      | minus => exact List.mem_singleton.1 hc ▸ rfl
    · exact isNumberChar_of_digit (hdigits c (.inl hc))
    · cases hfraction with
      | absent => cases hc
      | point =>
        rcases List.mem_cons.1 hc with rfl | hc
        · rfl
        · exact isNumberChar_of_digit (hdigits c (.inr hc))
    · exact isNumberChar_of_mem_exponentText htail c hc

theorem exists_head (htext : NumberText text negative magnitude) :
    ∃ c rest, text = c :: rest ∧ (c = '-' ∨ isDecimalDigit c = true) := by
  cases htext with
  | @intro _ whole _ _ _ _ _ _ hsign hwhole _ _ _ hnumeral =>
    cases hsign with
    | minus => exact ⟨'-', _, rfl, .inl rfl⟩
    | absent =>
      obtain ⟨c, rest, rfl⟩ := List.exists_cons_of_ne_nil hwhole
      exact ⟨c, _, rfl, .inr ((numeral_ten_iff.1 hnumeral).1 c (by simp))⟩

theorem decimalText (htext : NumberText text negative magnitude) :
    DecimalText text negative magnitude := by
  cases htext with
  | intro hsign hwhole _ hfraction _ hnumeral htail =>
    exact .intro hsign.signText hfraction (by simp [hwhole]) hnumeral htail

theorem unique {negative' : Bool} {magnitude' : ℚ} (htext : NumberText text negative magnitude)
    (hother : NumberText text negative' magnitude') :
    negative' = negative ∧ magnitude' = magnitude :=
  htext.decimalText.unique hother.decimalText

end NumberText

/-! ## Strings -/

theorem UnitText.unique {digits digits' rest rest' : List Char} {unit unit' : Nat}
    (hdigits : UnitText digits unit) (hdigits' : UnitText digits' unit')
    (heq : digits ++ rest = digits' ++ rest') : unit = unit' ∧ rest = rest' := by
  obtain ⟨rfl, hrest⟩ := List.append_inj heq (hdigits.length_eq.trans hdigits'.length_eq.symm)
  exact ⟨hdigits.numeral.unique hdigits'.numeral, hrest⟩

/-- No character has a code that is half of another one. -/
theorem toNat_ne_half (c : Char) {high : Nat} (hhigh : high < 0x400) : c.toNat ≠ 0xd800 + high := by
  intro hc
  have hvalid : c.toNat.isValidChar := c.valid
  rcases hvalid with hlow | ⟨habove, -⟩ <;> omega

theorem EscapeText.unique {text text' rest rest' : List Char} {c c' : Char}
    (htext : EscapeText text c)
    (hother : EscapeText text' c') (heq : text ++ rest = text' ++ rest') :
    c = c' ∧ rest = rest' := by
  have htable : ∀ entry ∈ shortEscapes, entry.1 ≠ 'u' ∧
      ∀ other ∈ shortEscapes, entry.1 = other.1 → entry.2 = other.2 := by decide
  cases htext with
  | short hletter =>
    cases hother with
    | short hletter' =>
      obtain ⟨hsame, hrest⟩ := List.cons.inj heq
      exact ⟨(htable _ hletter).2 _ hletter' hsame, hrest⟩
    | code => exact absurd (List.cons.inj heq).1 (htable _ hletter).1
    | halves => exact absurd (List.cons.inj heq).1 (htable _ hletter).1
  | code hdigits =>
    cases hother with
    | short hletter => exact absurd (List.cons.inj heq).1.symm (htable _ hletter).1
    | code hdigits' =>
      obtain ⟨hunit, hrest⟩ := hdigits.unique hdigits' (List.cons.inj heq).2
      exact ⟨Char.toNat_inj.1 hunit, hrest⟩
    | halves hfirst _ hhigh =>
      simp only [List.cons_append, List.append_assoc, List.cons.injEq, true_and] at heq
      exact absurd (hdigits.unique hfirst heq).1 (toNat_ne_half c hhigh)
  | halves hfirst hsecond hhigh _ hc =>
    cases hother with
    | short hletter => exact absurd (List.cons.inj heq).1.symm (htable _ hletter).1
    | code hdigits =>
      simp only [List.cons_append, List.append_assoc, List.cons.injEq, true_and] at heq
      exact absurd (hfirst.unique hdigits heq).1.symm (toNat_ne_half c' hhigh)
    | halves hfirst' hsecond' _ _ hc' =>
      simp only [List.cons_append, List.append_assoc, List.cons.injEq, true_and] at heq
      obtain ⟨hhighs, hlater⟩ := hfirst.unique hfirst' heq
      simp only [List.cons.injEq, true_and] at hlater
      obtain ⟨hlows, hrest⟩ := hsecond.unique hsecond' hlater
      exact ⟨Char.toNat_inj.1 (by omega), hrest⟩

theorem CharText.unique {text text' rest rest' : List Char} {c c' : Char} (htext : CharText text c)
    (hother : CharText text' c') (heq : text ++ rest = text' ++ rest') : c = c' ∧ rest = rest' := by
  cases htext with
  | plain _ _ hbackslash =>
    cases hother with
    | plain => exact List.cons.inj heq
    | escaped => exact absurd (List.cons.inj heq).1 hbackslash
  | escaped hescape =>
    cases hother with
    | plain _ _ hbackslash => exact absurd (List.cons.inj heq).1.symm hbackslash
    | escaped hescape' => exact hescape.unique hescape' (List.cons.inj heq).2

theorem CharText.exists_head {text : List Char} {c : Char} (htext : CharText text c) :
    ∃ first rest, text = first :: rest ∧ first ≠ '"' := by
  cases htext with
  | plain _ hquote => exact ⟨c, [], rfl, hquote⟩
  | escaped => exact ⟨'\\', _, rfl, by decide⟩

theorem StringRest.unique {chars chars' input rest rest' : List Char}
    (hstring : StringRest chars input rest) (hother : StringRest chars' input rest') :
    chars' = chars ∧ rest' = rest := by
  induction hstring generalizing chars' with
  | @close rest =>
    generalize hinput : '"' :: rest = input at hother
    cases hother with
    | close => exact ⟨rfl, (List.cons.inj hinput).2.symm⟩
    | char hchar =>
      obtain ⟨first, later, rfl, hquote⟩ := hchar.exists_head
      exact absurd (List.cons.inj hinput).1.symm hquote
  | @char text chars later rest c hchar _ ih =>
    generalize hinput : text ++ later = input at hother
    cases hother with
    | close =>
      obtain ⟨first, _, rfl, hquote⟩ := hchar.exists_head
      exact absurd (List.cons.inj hinput).1 hquote
    | char hchar' hstring' =>
      obtain ⟨rfl, rfl⟩ := hchar.unique hchar' hinput
      obtain ⟨rfl, hrest⟩ := ih hstring'
      exact ⟨rfl, hrest⟩

/-! ## Values -/

inductive Phrase.Sort where
  | value
  | spaced
  | items
  | member
  | members
  deriving DecidableEq

def Phrase.sort : Phrase → Phrase.Sort
  | .value _ => .value
  | .spaced _ => .spaced
  | .items _ => .items
  | .member .. => .member
  | .members _ => .members

/-- Whether a phrase ends in front of the character, wherever it stands. -/
def Phrase.Sort.endsAt : Phrase.Sort → Char → Bool
  | .value, c => !isNumberChar c
  | .spaced, c | .member, c => !isNumberChar c && !isSpace c
  | .items, c | .members, c => !isNumberChar c && !isSpace c && c != ','

/-- What follows does not belong to the phrase. -/
def Phrase.Sort.Ends (sort : Phrase.Sort) (rest : List Char) : Prop :=
  ∀ c ∈ rest.head?, sort.endsAt c = true

/-- How a value is read from behind its first character. -/
def Shape (c : Char) (tree : Tree) (input rest : List Char) : Prop :=
  if c = 'n' then tree = .null ∧ input = ['u', 'l', 'l'] ++ rest
  else if c = 't' then tree = .bool true ∧ input = ['r', 'u', 'e'] ++ rest
  else if c = 'f' then tree = .bool false ∧ input = ['a', 'l', 's', 'e'] ++ rest
  else if c = '"' then ∃ chars, tree = .string (String.ofList chars) ∧ StringRest chars input rest
  else if c = '[' then
    (tree = .array [] ∧ ∃ spaces, Spaces spaces ∧ input = spaces ++ ']' :: rest) ∨
      ∃ trees, tree = .array trees ∧ Reads (.items trees) input (']' :: rest)
  else if c = '{' then
    (tree = .object [] ∧ ∃ spaces, Spaces spaces ∧ input = spaces ++ '}' :: rest) ∨
      ∃ pairs, tree = .object pairs ∧ Reads (.members pairs) input ('}' :: rest)
  else ∃ text negative magnitude, tree = .number negative magnitude ∧
    NumberText text negative magnitude ∧ c :: input = text ++ rest

/-- A number begins like no other value. -/
theorem shape_of_number {c : Char} (hc : c = '-' ∨ isDecimalDigit c = true) (tree : Tree)
    (input rest : List Char) :
    Shape c tree input rest ↔ ∃ text negative magnitude, tree = .number negative magnitude ∧
      NumberText text negative magnitude ∧ c :: input = text ++ rest := by
  have hother : ∀ d, d ≠ '-' → isDecimalDigit d = false → c ≠ d := by
    rintro d hminus hdigit rfl
    rw [hdigit] at hc
    simp [hminus] at hc
  rw [Shape, if_neg (hother 'n' (by decide) rfl), if_neg (hother 't' (by decide) rfl),
    if_neg (hother 'f' (by decide) rfl), if_neg (hother '"' (by decide) rfl),
    if_neg (hother '[' (by decide) rfl), if_neg (hother '{' (by decide) rfl)]

theorem Reads.exists_shape {tree : Tree} {input rest : List Char}
    (hreads : Reads (.value tree) input rest) :
    ∃ c later, input = c :: later ∧ Shape c tree later rest := by
  cases hreads with
  | null => exact ⟨'n', _, rfl, rfl, rfl⟩
  | yes => exact ⟨'t', _, rfl, rfl, rfl⟩
  | no => exact ⟨'f', _, rfl, rfl, rfl⟩
  | number htext =>
    obtain ⟨c, later, rfl, hc⟩ := htext.exists_head
    exact ⟨c, _, rfl, (shape_of_number hc _ _ _).2 ⟨_, _, _, rfl, htext, rfl⟩⟩
  | string hstring => exact ⟨'"', _, rfl, _, rfl, hstring⟩
  | noItems hspaces => exact ⟨'[', _, rfl, .inl ⟨rfl, _, hspaces, rfl⟩⟩
  | array hitems => exact ⟨'[', _, rfl, .inr ⟨_, rfl, hitems⟩⟩
  | noMembers hspaces => exact ⟨'{', _, rfl, .inl ⟨rfl, _, hspaces, rfl⟩⟩
  | object hmembers => exact ⟨'{', _, rfl, .inr ⟨_, rfl, hmembers⟩⟩

theorem Reads.shape {tree : Tree} {c : Char} {input rest : List Char}
    (hreads : Reads (.value tree) (c :: input) rest) : Shape c tree input rest := by
  obtain ⟨d, later, hinput, hshape⟩ := hreads.exists_shape
  obtain ⟨rfl, rfl⟩ := List.cons.inj hinput
  exact hshape

/-- Neither a space nor a closing bracket begins a value. -/
theorem Reads.value_first {tree : Tree} {input rest : List Char}
    (hreads : Reads (.value tree) input rest) :
    ∀ c ∈ input.head?, isSpace c = false ∧ c ≠ ']' := by
  obtain ⟨c, later, rfl, hshape⟩ := hreads.exists_shape
  rintro _ ⟨⟩
  by_contra hnot
  have hc : c = ' ' ∨ c = '\t' ∨ c = '\n' ∨ c = '\r' ∨ c = ']' := by
    simpa [isSpace, or_assoc, ← or_iff_not_imp_left] using hnot
  have hnumber : ∃ text negative magnitude, NumberText text negative magnitude ∧
      c :: later = text ++ rest := by
    rcases hc with rfl | rfl | rfl | rfl | rfl <;>
      obtain ⟨text, negative, magnitude, -, htext⟩ := hshape <;>
      exact ⟨text, negative, magnitude, htext⟩
  obtain ⟨text, negative, magnitude, htext, htail⟩ := hnumber
  obtain ⟨d, _, rfl, hd⟩ := htext.exists_head
  obtain rfl := (List.cons.inj htail).1
  rcases hd with rfl | hd
  · simp at hc
  · rcases hc with rfl | rfl | rfl | rfl | rfl <;> simp [isDecimalDigit] at hd

/-- Spaces are told apart from what follows them. -/
theorem Spaces.unique {spaces spaces' rest rest' : List Char} (hspaces : Spaces spaces)
    (hspaces' : Spaces spaces') (hrest : ∀ c ∈ rest.head?, isSpace c = false)
    (hrest' : ∀ c ∈ rest'.head?, isSpace c = false) (heq : spaces ++ rest = spaces' ++ rest') :
    rest = rest' :=
  (eq_of_append_eq hspaces hspaces' hrest hrest' heq).2

/-- Items do not begin with the bracket that closes them. -/
theorem not_reads_items_close {trees : List Tree} {spaces input rest : List Char}
    (hspaces : Spaces spaces) : ¬Reads (.items trees) (spaces ++ ']' :: input) rest := by
  intro hitems
  obtain ⟨tree, rest', hspaced⟩ :
      ∃ tree rest', Reads (.spaced tree) (spaces ++ ']' :: input) rest' := by
    cases hitems with
    | lastItem hspaced => exact ⟨_, _, hspaced⟩
    | item hspaced => exact ⟨_, _, hspaced⟩
  generalize hall : spaces ++ ']' :: input = all at hspaced
  cases hspaced with
  | spaced hbefore hvalue =>
    have hsame := hspaces.unique hbefore (by simp [isSpace])
      (fun c hc => (hvalue.value_first c hc).1) hall
    exact (hvalue.value_first ']' (by simp [← hsame])).2 rfl

/-- Members do not begin with the bracket that closes them. -/
theorem not_reads_members_close {pairs : List (String × Tree)} {spaces input rest : List Char}
    (hspaces : Spaces spaces) : ¬Reads (.members pairs) (spaces ++ '}' :: input) rest := by
  intro hmembers
  obtain ⟨key, tree, rest', hmember⟩ :
      ∃ key tree rest', Reads (.member key tree) (spaces ++ '}' :: input) rest' := by
    cases hmembers with
    | lastMember hmember => exact ⟨_, _, _, hmember⟩
    | moreMembers hmember => exact ⟨_, _, _, hmember⟩
  generalize hall : spaces ++ '}' :: input = all at hmember
  cases hmember with
  | member hbefore =>
    have hsame := hspaces.unique hbefore (by simp [isSpace]) (by simp [isSpace]) hall
    exact absurd (List.cons.inj hsame).1 (by decide)

namespace Phrase.Sort.Ends

theorem of_cons {sort : Phrase.Sort} {c : Char} {rest : List Char} (hc : sort.endsAt c = true) :
    sort.Ends (c :: rest) := by
  rintro _ ⟨⟩
  exact hc

variable {rest : List Char}

theorem value_of_spaces (hrest : Phrase.Sort.spaced.Ends rest) {spaces : List Char}
    (hspaces : Spaces spaces) : Phrase.Sort.value.Ends (spaces ++ rest) := by
  intro c hc
  cases spaces with
  | nil =>
    have hend := hrest c hc
    simp only [endsAt, Bool.and_eq_true] at hend
    exact hend.1
  | cons d spaces =>
    obtain rfl := Option.some.inj hc
    have hspace := hspaces d List.mem_cons_self
    simp only [isSpace, Bool.or_eq_true, decide_eq_true_eq] at hspace
    rcases hspace with ((rfl | rfl) | rfl) | rfl <;> rfl

theorem not_space (hrest : Phrase.Sort.spaced.Ends rest) : ∀ c ∈ rest.head?, isSpace c = false := by
  intro c hc
  have hend := hrest c hc
  simp only [endsAt, Bool.and_eq_true, Bool.not_eq_true'] at hend
  exact hend.2

theorem spaced_of_items (hrest : Phrase.Sort.items.Ends rest) : Phrase.Sort.spaced.Ends rest := by
  intro c hc
  have hend := hrest c hc
  simp only [endsAt, Bool.and_eq_true] at hend ⊢
  exact hend.1

theorem ne_comma (hrest : Phrase.Sort.items.Ends rest) (later : List Char) :
    rest ≠ ',' :: later := by
  rintro rfl
  have hend := hrest ',' rfl
  simp [endsAt] at hend

end Phrase.Sort.Ends

theorem Phrase.exists_value {phrase : Phrase} (hsort : phrase.sort = .value) :
    ∃ tree, phrase = .value tree := by
  cases phrase <;> first | exact ⟨_, rfl⟩ | cases hsort

/-- Of one input, phrases of a sort that end where they must are the same, and leave the same. -/
theorem Reads.unique {phrase other : Phrase} {input rest rest' : List Char}
    (hreads : Reads phrase input rest) (hother : Reads other input rest')
    (hsort : other.sort = phrase.sort) (hrest : phrase.sort.Ends rest)
    (hrest' : phrase.sort.Ends rest') : other = phrase ∧ rest' = rest := by
  induction hreads generalizing other rest' with
  | null =>
    obtain ⟨tree, rfl⟩ := Phrase.exists_value hsort
    obtain ⟨rfl, hinput⟩ : tree = .null ∧ _ = _ := hother.shape
    exact ⟨rfl, by simpa using hinput.symm⟩
  | yes =>
    obtain ⟨tree, rfl⟩ := Phrase.exists_value hsort
    obtain ⟨rfl, hinput⟩ : tree = .bool true ∧ _ = _ := hother.shape
    exact ⟨rfl, by simpa using hinput.symm⟩
  | no =>
    obtain ⟨tree, rfl⟩ := Phrase.exists_value hsort
    obtain ⟨rfl, hinput⟩ : tree = .bool false ∧ _ = _ := hother.shape
    exact ⟨rfl, by simpa using hinput.symm⟩
  | number htext =>
    obtain ⟨tree, rfl⟩ := Phrase.exists_value hsort
    obtain ⟨c, later, rfl, hc⟩ := htext.exists_head
    obtain ⟨text', negative, magnitude, rfl, htext', hinput⟩ :=
      (shape_of_number hc _ _ _).1 hother.shape
    have hnotNumber : ∀ rest : List Char, Phrase.Sort.value.Ends rest →
        ∀ c ∈ rest.head?, isNumberChar c = false := fun rest hends c hc => by
      simpa [Phrase.Sort.endsAt] using hends c hc
    obtain ⟨rfl, rfl⟩ := eq_of_append_eq htext.isNumberChar_of_mem htext'.isNumberChar_of_mem
      (hnotNumber _ hrest) (hnotNumber _ hrest') hinput
    obtain ⟨rfl, rfl⟩ := htext.unique htext'
    exact ⟨rfl, rfl⟩
  | string hstring =>
    obtain ⟨tree, rfl⟩ := Phrase.exists_value hsort
    obtain ⟨chars, rfl, hstring'⟩ :
        ∃ chars, tree = .string (String.ofList chars) ∧ _ := hother.shape
    obtain ⟨rfl, rfl⟩ := hstring.unique hstring'
    exact ⟨rfl, rfl⟩
  | noItems hspaces =>
    obtain ⟨tree, rfl⟩ := Phrase.exists_value hsort
    rcases (hother.shape : _ ∨ _) with ⟨rfl, spaces, hspaces', hinput⟩ | ⟨trees, rfl, hitems⟩
    · have hsame := hspaces.unique hspaces' (by simp [isSpace]) (by simp [isSpace]) hinput
      exact ⟨rfl, (List.cons.inj hsame).2.symm⟩
    · exact absurd hitems (not_reads_items_close hspaces)
  | array hitems ih =>
    obtain ⟨tree, rfl⟩ := Phrase.exists_value hsort
    rcases (hother.shape : _ ∨ _) with ⟨rfl, spaces, hspaces, rfl⟩ | ⟨trees, rfl, hitems'⟩
    · exact absurd hitems (not_reads_items_close hspaces)
    · obtain ⟨htrees, hinput⟩ := ih hitems' rfl (.of_cons rfl) (.of_cons rfl)
      obtain rfl := Phrase.items.inj htrees
      exact ⟨rfl, (List.cons.inj hinput).2⟩
  | noMembers hspaces =>
    obtain ⟨tree, rfl⟩ := Phrase.exists_value hsort
    rcases (hother.shape : _ ∨ _) with ⟨rfl, spaces, hspaces', hinput⟩ | ⟨pairs, rfl, hmembers⟩
    · have hsame := hspaces.unique hspaces' (by simp [isSpace]) (by simp [isSpace]) hinput
      exact ⟨rfl, (List.cons.inj hsame).2.symm⟩
    · exact absurd hmembers (not_reads_members_close hspaces)
  | object hmembers ih =>
    obtain ⟨tree, rfl⟩ := Phrase.exists_value hsort
    rcases (hother.shape : _ ∨ _) with ⟨rfl, spaces, hspaces, rfl⟩ | ⟨pairs, rfl, hmembers'⟩
    · exact absurd hmembers (not_reads_members_close hspaces)
    · obtain ⟨hpairs, hinput⟩ := ih hmembers' rfl (.of_cons rfl) (.of_cons rfl)
      obtain rfl := Phrase.members.inj hpairs
      exact ⟨rfl, (List.cons.inj hinput).2⟩
  | @spaced tree before after input rest hbefore hvalue hafter ih =>
    generalize hall : before ++ input = all at hother
    cases hother with
    | spaced hbefore' hvalue' hafter' =>
      obtain rfl := hbefore.unique hbefore' (fun c hc => (hvalue.value_first c hc).1)
        (fun c hc => (hvalue'.value_first c hc).1) hall
      obtain ⟨htree, hlater⟩ :=
        ih hvalue' rfl (hrest.value_of_spaces hafter) (hrest'.value_of_spaces hafter')
      obtain rfl := Phrase.value.inj htree
      exact ⟨rfl, hafter'.unique hafter hrest'.not_space hrest.not_space hlater⟩
    | _ => cases hsort
  | lastItem hitem ih =>
    cases hother with
    | lastItem hitem' =>
      obtain ⟨htree, rfl⟩ := ih hitem' rfl hrest.spaced_of_items hrest'.spaced_of_items
      obtain rfl := Phrase.spaced.inj htree
      exact ⟨rfl, rfl⟩
    | item hitem' =>
      obtain ⟨-, hcomma⟩ := ih hitem' rfl hrest.spaced_of_items (.of_cons rfl)
      exact absurd hcomma.symm (hrest.ne_comma _)
    | _ => cases hsort
  | item hitem hitems ih ihs =>
    cases hother with
    | lastItem hitem' =>
      obtain ⟨-, hcomma⟩ := ih hitem' rfl (.of_cons rfl) hrest'.spaced_of_items
      exact absurd hcomma (hrest'.ne_comma _)
    | item hitem' hitems' =>
      obtain ⟨htree, hmiddle⟩ := ih hitem' rfl (.of_cons rfl) (.of_cons rfl)
      obtain rfl := Phrase.spaced.inj htree
      obtain rfl := (List.cons.inj hmiddle).2
      obtain ⟨htrees, rfl⟩ := ihs hitems' rfl hrest hrest'
      obtain rfl := Phrase.items.inj htrees
      exact ⟨rfl, rfl⟩
    | _ => cases hsort
  | @member key tree before after input middle rest hbefore hkey hafter hvalue ih =>
    generalize hall : before ++ '"' :: input = all at hother
    cases hother with
    | member hbefore' hkey' hafter' hvalue' =>
      have hinput := hbefore.unique hbefore' (by simp [isSpace]) (by simp [isSpace]) hall
      obtain rfl := (List.cons.inj hinput).2
      obtain ⟨rfl, hlater⟩ := hkey.unique hkey'
      have hmiddle := hafter'.unique hafter (by simp [isSpace]) (by simp [isSpace]) hlater
      obtain rfl := (List.cons.inj hmiddle).2
      obtain ⟨htree, rfl⟩ := ih hvalue' rfl hrest hrest'
      obtain rfl := Phrase.spaced.inj htree
      exact ⟨rfl, rfl⟩
    | _ => cases hsort
  | lastMember hmember ih =>
    cases hother with
    | lastMember hmember' =>
      obtain ⟨hpair, rfl⟩ := ih hmember' rfl hrest.spaced_of_items hrest'.spaced_of_items
      obtain ⟨rfl, rfl⟩ := Phrase.member.inj hpair
      exact ⟨rfl, rfl⟩
    | moreMembers hmember' =>
      obtain ⟨-, hcomma⟩ := ih hmember' rfl hrest.spaced_of_items (.of_cons rfl)
      exact absurd hcomma.symm (hrest.ne_comma _)
    | _ => cases hsort
  | moreMembers hmember hmembers ih ihs =>
    cases hother with
    | lastMember hmember' =>
      obtain ⟨-, hcomma⟩ := ih hmember' rfl (.of_cons rfl) hrest'.spaced_of_items
      exact absurd hcomma (hrest'.ne_comma _)
    | moreMembers hmember' hmembers' =>
      obtain ⟨hpair, hmiddle⟩ := ih hmember' rfl (.of_cons rfl) (.of_cons rfl)
      obtain ⟨rfl, rfl⟩ := Phrase.member.inj hpair
      obtain rfl := (List.cons.inj hmiddle).2
      obtain ⟨hpairs, rfl⟩ := ihs hmembers' rfl hrest hrest'
      obtain rfl := Phrase.members.inj hpairs
      exact ⟨rfl, rfl⟩
    | _ => cases hsort

/-- A text is a document for one tree at most. -/
theorem IsDocument.unique {text : String} {tree other : Tree} (htree : IsDocument text tree)
    (hother : IsDocument text other) : other = tree := by
  have hend : Phrase.Sort.spaced.Ends [] := by
    rintro _ ⟨⟩
  exact Phrase.spaced.inj (Reads.unique htree hother rfl hend hend).1

end TimingReport.Json
