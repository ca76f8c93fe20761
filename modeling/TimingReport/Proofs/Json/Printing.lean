import TimingReport.Proofs.Json.Numbers

/-!
# Texts that are printed

The text of a value, be it with one item a line or without blanks, is a JSON document.  It stands
for the value: every string for its characters, and every finite double for a number that it is
nearest to.
-/

namespace TimingReport.Json

open TimingReport.Number

/-! ## Strings -/

theorem unitText_hexDigits {n : Nat} (hn : n < 32) : UnitText (hexDigits 4 n) n := by
  have hdigits : ∀ n < 32,
      hexDigits 4 n = ['0', '0', Nat.digitChar (n / 16), Nat.digitChar (n % 16)] := by decide
  have hvalue : ∀ digit < 16, digitValue? 16 (Nat.digitChar digit) = some digit := by decide
  have hzero : digitValue? 16 '0' = some 0 := hvalue 0 (by decide)
  have hall := (((Numeral.nil.snoc hzero).snoc hzero).snoc (hvalue (n / 16) (by omega))).snoc
    (hvalue (n % 16) (by omega))
  rw [hdigits n hn]
  refine ⟨rfl, ?_⟩
  rwa [show ((0 * 16 + 0) * 16 + 0) * 16 + n / 16 = n / 16 by omega, Nat.div_add_mod'] at hall

theorem charText_escapeChar (c : Char) : CharText (escapeChar c) c := by
  have hshort : ∀ letter, (letter, c) ∈ shortEscapes → CharText ['\\', letter] c :=
    fun letter hletter => .escaped (.short hletter)
  rw [escapeChar]
  split_ifs with hquote hbackslash hbackspace hformFeed hlineFeed hreturn htab hcontrol
  · exact hshort _ (by simp [shortEscapes, hquote])
  · exact hshort _ (by simp [shortEscapes, hbackslash])
  · exact hshort _ (by simp [shortEscapes, hbackspace])
  · exact hshort _ (by simp [shortEscapes, hformFeed])
  · exact hshort _ (by simp [shortEscapes, hlineFeed])
  · exact hshort _ (by simp [shortEscapes, hreturn])
  · exact hshort _ (by simp [shortEscapes, htab])
  · exact .escaped (.code (unitText_hexDigits hcontrol))
  · exact .plain (not_lt.1 hcontrol) hquote hbackslash

/-- A string is read as its characters. -/
theorem stringRest_escaped (chars rest : List Char) :
    StringRest chars (chars.flatMap escapeChar ++ '"' :: rest) rest := by
  induction chars with
  | nil => exact .close
  | cons c chars ih =>
    rw [List.flatMap_cons, List.append_assoc]
    exact .char (charText_escapeChar c) ih

theorem stringText_append (text : String) (rest : List Char) :
    stringText text ++ rest = '"' :: (text.toList.flatMap escapeChar ++ '"' :: rest) := by
  simp [stringText]

/-! ## Values -/

mutual
/-- What the text of a value stands for. -/
def Value.tree : Value → Tree
  | .null => .null
  | .bool value => .bool value
  | .integer value => .number (value < 0) value.natAbs
  | .number value =>
    if isFinite value then .number (isNegative value) (writtenMagnitude value) else .null
  | .string value => .string value
  | .array items => .array (itemTrees items)
  | .object members => .object (memberTrees members)

def itemTrees : List Value → List Tree
  | [] => []
  | item :: rest => item.tree :: itemTrees rest

def memberTrees : List (String × Value) → List (String × Tree)
  | [] => []
  | (key, value) :: rest => (key, value.tree) :: memberTrees rest
end

theorem itemTrees_eq_map (items : List Value) : itemTrees items = items.map Value.tree := by
  induction items with
  | nil => rfl
  | cons item items ih => rw [itemTrees, ih, List.map_cons]

theorem spaces_newLine (level : Nat) : Spaces (newLine level) := by
  intro c hc
  rcases List.mem_cons.1 hc with rfl | hc
  · rfl
  · rw [List.eq_of_mem_replicate hc]
    rfl

theorem spaces_nil : Spaces [] := fun _ hc => absurd hc List.not_mem_nil

theorem spaces_blank : Spaces [' '] := by simp [Spaces, isSpace]

theorem reads_boolText (value : Bool) (rest : List Char) :
    Reads (.value (.bool value)) (boolText value ++ rest) rest := by
  cases value
  · exact .no
  · exact .yes

theorem reads_numberText (value : Float) (rest : List Char) :
    Reads (.value (Value.number value).tree) (numberText value ++ rest) rest := by
  rw [Value.tree, numberText]
  split
  · next hfinite => exact .number (numberText_chars hfinite).1
  · exact .null

theorem reads_stringText (value : String) (rest : List Char) :
    Reads (.value (.string value)) (stringText value ++ rest) rest := by
  have hstring := Reads.string (stringRest_escaped value.toList rest)
  rwa [String.ofList_toList, ← stringText_append] at hstring

theorem bracketed_append {lines : List (List Char)} (hlines : lines ≠ []) (opening closing : Char)
    (level : Nat) (rest : List Char) :
    bracketed opening closing level lines ++ rest =
      opening :: (newLine (level + 1) ++ (separated (',' :: newLine (level + 1)) lines ++
        (newLine level ++ closing :: rest))) := by
  rw [bracketed, if_neg (by simpa using hlines)]
  simp

/-! ## Parts with commas between them -/

/-- Behind the spaces `before` and in front of any others, the text is read as the phrase. -/
def ReadBehind (before : List Char) (phrase : Phrase) (text : List Char) : Prop :=
  ∀ after rest : List Char, Spaces after → Reads phrase (before ++ (text ++ (after ++ rest))) rest

section ReadBehind

variable {before gap text : List Char} {tree : Tree}

theorem readBehind_spaced (hbefore : Spaces before)
    (hvalue : ∀ rest, Reads (.value tree) (text ++ rest) rest) :
    ReadBehind before (.spaced tree) text :=
  fun _ _ hafter => .spaced hbefore (hvalue _) hafter

theorem readBehind_member (hbefore : Spaces before) (hgap : Spaces gap) (key : String)
    (hvalue : ∀ rest, Reads (.value tree) (text ++ rest) rest) :
    ReadBehind before (.member key tree) (stringText key ++ ':' :: (gap ++ text)) := by
  intro after rest hafter
  have hkey : StringRest key.toList
      (key.toList.flatMap escapeChar ++ '"' :: ':' :: (gap ++ (text ++ (after ++ rest))))
      ([] ++ ':' :: (gap ++ (text ++ (after ++ rest)))) := stringRest_escaped _ _
  have hmember := Reads.member hbefore hkey spaces_nil (.spaced hgap (hvalue _) hafter)
  rw [String.ofList_toList] at hmember
  simpa [stringText] using hmember

/-- Parts with commas and spaces between them are read if each of them is.  Nothing but spaces
follows the last one; in front of a comma there are none. -/
theorem readBehind_separated {α : Type} {one : α → Phrase} {all : List α → Phrase}
    (hlast : ∀ {part input rest}, Reads (one part) input rest → Reads (all [part]) input rest)
    (hmore : ∀ {part parts input middle rest}, Reads (one part) input (',' :: middle) →
      Reads (all parts) middle rest → Reads (all (part :: parts)) input rest)
    {parts : List α} {texts : List (List Char)} (hparts : parts ≠ [])
    (hall : List.Forall₂ (fun part text => ReadBehind before (one part) text) parts texts) :
    ReadBehind before (all parts) (separated (',' :: before) texts) := by
  intro after rest hafter
  induction hall with
  | nil => exact absurd rfl hparts
  | @cons part text parts texts hpart hrest ih =>
    cases hrest with
    | nil =>
      rw [separated, List.intercalate_singleton]
      exact hlast (hpart after rest hafter)
    | @cons next nextText parts texts hnext hrest =>
      -- What is left of the first part is the comma and the text of the others.
      have hcomma := hpart [] (',' :: (before ++ (separated (',' :: before) (nextText :: texts) ++
        (after ++ rest)))) spaces_nil
      rw [separated, List.intercalate_cons_cons, ← separated]
      refine hmore ?_ (ih (List.cons_ne_nil _ _))
      simpa using hcomma

end ReadBehind

theorem readBehind_items {before : List Char} {trees : List Tree} {texts : List (List Char)}
    (htrees : trees ≠ [])
    (hall : List.Forall₂ (fun tree text => ReadBehind before (.spaced tree) text) trees texts) :
    ReadBehind before (.items trees) (separated (',' :: before) texts) :=
  readBehind_separated .lastItem .item htrees hall

theorem readBehind_members {before : List Char} {members : List (String × Tree)}
    {texts : List (List Char)} (hmembers : members ≠ [])
    (hall : List.Forall₂ (fun member text => ReadBehind before (.member member.1 member.2) text)
      members texts) :
    ReadBehind before (.members members) (separated (',' :: before) texts) :=
  readBehind_separated .lastMember .moreMembers hmembers hall

/-! ## One item a line -/

mutual
/-- The text of a value, at any level and in front of anything, is read as the value. -/
theorem reads_pretty (level : Nat) : (value : Value) → (rest : List Char) →
    Reads (.value value.tree) (value.pretty level ++ rest) rest
  | .null, rest => by
    rw [Value.tree, Value.pretty]
    exact .null
  | .bool value, rest => by
    rw [Value.tree, Value.pretty]
    exact reads_boolText value rest
  | .integer value, rest => by
    rw [Value.tree, Value.pretty]
    exact .number (numberText_integerText value)
  | .number value, rest => by
    rw [Value.pretty]
    exact reads_numberText value rest
  | .string value, rest => by
    rw [Value.tree, Value.pretty]
    exact reads_stringText value rest
  | .array [], rest => by
    rw [Value.tree, Value.pretty]
    exact .noItems spaces_nil
  | .array (item :: items), rest => by
    rw [Value.tree, Value.pretty, bracketed_append (by simp [prettyItems])]
    exact .array (readBehind_items (by simp [itemTrees])
      (readBehind_prettyItems (level + 1) (item :: items)) _ _ (spaces_newLine level))
  | .object [], rest => by
    rw [Value.tree, Value.pretty]
    exact .noMembers spaces_nil
  | .object (member :: members), rest => by
    rw [Value.tree, Value.pretty, bracketed_append (by simp [prettyMembers])]
    exact .object (readBehind_members (by simp [memberTrees])
      (readBehind_prettyMembers (level + 1) (member :: members)) _ _ (spaces_newLine level))

theorem readBehind_prettyItems (level : Nat) : (items : List Value) →
    List.Forall₂ (fun tree text => ReadBehind (newLine level) (.spaced tree) text)
      (itemTrees items) (prettyItems level items)
  | [] => by
    rw [itemTrees, prettyItems]
    exact .nil
  | item :: items => by
    rw [itemTrees, prettyItems]
    exact .cons (readBehind_spaced (spaces_newLine level) (reads_pretty level item))
      (readBehind_prettyItems level items)

theorem readBehind_prettyMembers (level : Nat) : (members : List (String × Value)) →
    List.Forall₂ (fun member text =>
        ReadBehind (newLine level) (.member member.1 member.2) text)
      (memberTrees members) (prettyMembers level members)
  | [] => by
    rw [memberTrees, prettyMembers]
    exact .nil
  | (key, value) :: members => by
    rw [memberTrees, prettyMembers]
    exact .cons
      (readBehind_member (spaces_newLine level) spaces_blank key (reads_pretty level value))
      (readBehind_prettyMembers level members)
end

/-- What is printed is a document for the value. -/
theorem isDocument_prettyText (value : Value) : IsDocument value.prettyText value.tree := by
  have hreads := reads_pretty 0 value []
  rw [IsDocument, Value.prettyText, String.toList_ofList]
  simpa using Reads.spaced spaces_nil hreads spaces_nil

/-! ## No blanks at all -/

mutual
/-- The compact text of a value, in front of anything, is read as the value. -/
theorem reads_compact : (value : Value) → (rest : List Char) →
    Reads (.value value.tree) (value.compact ++ rest) rest
  | .null, rest => by
    rw [Value.tree, Value.compact]
    exact .null
  | .bool value, rest => by
    rw [Value.tree, Value.compact]
    exact reads_boolText value rest
  | .integer value, rest => by
    rw [Value.tree, Value.compact]
    exact .number (numberText_integerText value)
  | .number value, rest => by
    rw [Value.compact]
    exact reads_numberText value rest
  | .string value, rest => by
    rw [Value.tree, Value.compact]
    exact reads_stringText value rest
  | .array [], rest => by
    rw [Value.tree, Value.compact]
    exact .noItems spaces_nil
  | .array (item :: items), rest => by
    have hitems := readBehind_items (by simp [itemTrees]) (readBehind_compactItems (item :: items))
      [] (']' :: rest) spaces_nil
    rw [Value.tree, Value.compact]
    simpa using Reads.array hitems
  | .object [], rest => by
    rw [Value.tree, Value.compact]
    exact .noMembers spaces_nil
  | .object (member :: members), rest => by
    have hmembers := readBehind_members (by simp [memberTrees])
      (readBehind_compactMembers (member :: members)) [] ('}' :: rest) spaces_nil
    rw [Value.tree, Value.compact]
    simpa using Reads.object hmembers

theorem readBehind_compactItems : (items : List Value) →
    List.Forall₂ (fun tree text => ReadBehind [] (.spaced tree) text)
      (itemTrees items) (compactItems items)
  | [] => by
    rw [itemTrees, compactItems]
    exact .nil
  | item :: items => by
    rw [itemTrees, compactItems]
    exact .cons (readBehind_spaced spaces_nil (reads_compact item)) (readBehind_compactItems items)

theorem readBehind_compactMembers : (members : List (String × Value)) →
    List.Forall₂ (fun member text => ReadBehind [] (.member member.1 member.2) text)
      (memberTrees members) (compactMembers members)
  | [] => by
    rw [memberTrees, compactMembers]
    exact .nil
  | (key, value) :: members => by
    rw [memberTrees, compactMembers]
    exact .cons (readBehind_member spaces_nil spaces_nil key (reads_compact value))
      (readBehind_compactMembers members)
end

/-- What is printed without blanks is a document for the value as well. -/
theorem isDocument_compactText (value : Value) : IsDocument value.compactText value.tree := by
  have hreads := reads_compact value []
  rw [IsDocument, Value.compactText, String.toList_ofList]
  simpa using Reads.spaced spaces_nil hreads spaces_nil

end TimingReport.Json
