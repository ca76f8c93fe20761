import TimingReport.Proofs.Number.Grammar

/-!
# The grammar of JSON texts

The grammar says what a JSON text stands for, with no reader and no printer in mind.  Each rule
tells what it leaves of its input.  Numbers stand for exact values, and a text stands for one value
at most.
-/

namespace TimingReport.Json

open TimingReport.Number

/-- What a JSON text stands for.  A number has a sign, which a zero keeps. -/
inductive Tree where
  | null
  | bool (value : Bool)
  | number (negative : Bool) (magnitude : ℚ)
  | string (value : String)
  | array (items : List Tree)
  | object (members : List (String × Tree))

/-! ## Numbers and strings -/

inductive MinusText : List Char → Bool → Prop where
  | absent : MinusText [] false
  | minus : MinusText ['-'] true

/-- A number: no plus and no needless zero stand in front, and digits on both sides of a point. -/
inductive NumberText : List Char → Bool → ℚ → Prop where
  | intro {sign whole point fraction tail : List Char} {negative : Bool} {n : Nat}
      {exponent : Int} :
      MinusText sign negative → whole ≠ [] → (whole.head? = some '0' → whole = ['0']) →
      FractionText point fraction → (point ≠ [] → fraction ≠ []) →
      Numeral 10 (whole ++ fraction) n → ExponentText tail exponent →
      NumberText (sign ++ (whole ++ (point ++ tail))) negative
        (n * 10 ^ (exponent - fraction.length))

/-- The letters behind a backslash and their characters. -/
def shortEscapes : List (Char × Char) :=
  [('"', '"'), ('\\', '\\'), ('/', '/'), ('b', '\x08'), ('f', '\x0c'), ('n', '\n'), ('r', '\r'),
    ('t', '\t')]

/-- Four digits of base sixteen. -/
structure UnitText (digits : List Char) (unit : Nat) : Prop where
  length_eq : digits.length = 4
  numeral : Numeral 16 digits unit

/-- What follows a backslash: a letter, the code of a character, or the two halves of a code that
does not fit four digits. -/
inductive EscapeText : List Char → Char → Prop where
  | short {letter c : Char} : (letter, c) ∈ shortEscapes → EscapeText [letter] c
  | code {digits : List Char} {c : Char} : UnitText digits c.toNat → EscapeText ('u' :: digits) c
  | halves {first second : List Char} {high low : Nat} {c : Char} :
      UnitText first (0xd800 + high) → UnitText second (0xdc00 + low) → high < 0x400 → low < 0x400 →
      c.toNat = 0x10000 + high * 0x400 + low →
      EscapeText ('u' :: (first ++ '\\' :: 'u' :: second)) c

/-- A character of a string, as it is or escaped.  Quotes, backslashes and controls are escaped. -/
inductive CharText : List Char → Char → Prop where
  | plain {c : Char} : 32 ≤ c.toNat → c ≠ '"' → c ≠ '\\' → CharText [c] c
  | escaped {text : List Char} {c : Char} : EscapeText text c → CharText ('\\' :: text) c

/-- The characters of a string up to its closing quote, and what is left. -/
inductive StringRest : List Char → List Char → List Char → Prop where
  | close {rest : List Char} : StringRest [] ('"' :: rest) rest
  | char {text chars input rest : List Char} {c : Char} :
      CharText text c → StringRest chars input rest → StringRest (c :: chars) (text ++ input) rest

/-! ## Values -/

def isSpace (c : Char) : Bool := c = ' ' || c = '\t' || c = '\n' || c = '\r'

def Spaces (text : List Char) : Prop := ∀ c ∈ text, isSpace c = true

/-- The parts of a JSON text. -/
inductive Phrase where
  | value (tree : Tree)
  /-- A value with spaces around it. -/
  | spaced (tree : Tree)
  /-- Values with commas between them. -/
  | items (trees : List Tree)
  | member (key : String) (tree : Tree)
  /-- Members with commas between them. -/
  | members (pairs : List (String × Tree))

/-- The input begins with the phrase, and the rest is left of it. -/
inductive Reads : Phrase → List Char → List Char → Prop where
  | null {rest : List Char} : Reads (.value .null) ('n' :: 'u' :: 'l' :: 'l' :: rest) rest
  | yes {rest : List Char} : Reads (.value (.bool true)) ('t' :: 'r' :: 'u' :: 'e' :: rest) rest
  | no {rest : List Char} :
      Reads (.value (.bool false)) ('f' :: 'a' :: 'l' :: 's' :: 'e' :: rest) rest
  | number {text rest : List Char} {negative : Bool} {magnitude : ℚ} :
      NumberText text negative magnitude →
      Reads (.value (.number negative magnitude)) (text ++ rest) rest
  | string {chars input rest : List Char} :
      StringRest chars input rest →
        Reads (.value (.string (String.ofList chars))) ('"' :: input) rest
  | noItems {spaces rest : List Char} :
      Spaces spaces → Reads (.value (.array [])) ('[' :: (spaces ++ ']' :: rest)) rest
  | array {trees : List Tree} {input rest : List Char} :
      Reads (.items trees) input (']' :: rest) → Reads (.value (.array trees)) ('[' :: input) rest
  | noMembers {spaces rest : List Char} :
      Spaces spaces → Reads (.value (.object [])) ('{' :: (spaces ++ '}' :: rest)) rest
  | object {pairs : List (String × Tree)} {input rest : List Char} :
      Reads (.members pairs) input ('}' :: rest) →
        Reads (.value (.object pairs)) ('{' :: input) rest
  | spaced {tree : Tree} {before after input rest : List Char} :
      Spaces before → Reads (.value tree) input (after ++ rest) → Spaces after →
      Reads (.spaced tree) (before ++ input) rest
  | lastItem {tree : Tree} {input rest : List Char} :
      Reads (.spaced tree) input rest → Reads (.items [tree]) input rest
  | item {tree : Tree} {trees : List Tree} {input middle rest : List Char} :
      Reads (.spaced tree) input (',' :: middle) → Reads (.items trees) middle rest →
      Reads (.items (tree :: trees)) input rest
  | member {key : List Char} {tree : Tree} {before after input middle rest : List Char} :
      Spaces before → StringRest key input (after ++ ':' :: middle) → Spaces after →
      Reads (.spaced tree) middle rest →
      Reads (.member (String.ofList key) tree) (before ++ '"' :: input) rest
  | lastMember {key : String} {tree : Tree} {input rest : List Char} :
      Reads (.member key tree) input rest → Reads (.members [(key, tree)]) input rest
  | moreMembers {key : String} {tree : Tree} {pairs : List (String × Tree)}
      {input middle rest : List Char} :
      Reads (.member key tree) input (',' :: middle) → Reads (.members pairs) middle rest →
      Reads (.members ((key, tree) :: pairs)) input rest

/-- The text is a JSON document that stands for the tree. -/
def IsDocument (text : String) (tree : Tree) : Prop := Reads (.spaced tree) text.toList []

end TimingReport.Json
