import TimingReport.Number.Binary64

/-!
# Number literals

Integers of a limited range in base ten or sixteen, and decimal floating-point numbers.
An integer is read from left to right, so of a bad digit and a value out of range the
one further left is reported.
-/

namespace TimingReport.Number

inductive LiteralError where
  | emptyInteger
  | invalidDigit
  | tooLarge
  | tooSmall
  | emptyFloat
  | invalidFloat
  deriving DecidableEq, Repr

def LiteralError.message : LiteralError → String
  | .emptyInteger => "cannot parse integer from empty string"
  | .invalidDigit => "invalid digit found in string"
  | .tooLarge => "number too large to fit in target type"
  | .tooSmall => "number too small to fit in target type"
  | .emptyFloat => "cannot parse float from empty string"
  | .invalidFloat => "invalid float literal"

/-- The value of a digit or letter `a` to `z` of either case, if it is below `base`. -/
def digitValue? (base : Nat) (c : Char) : Option Nat :=
  let value? :=
    if '0' ≤ c ∧ c ≤ '9' then some (c.toNat - '0'.toNat)
    else if 'a' ≤ c ∧ c ≤ 'z' then some (c.toNat - 'a'.toNat + 10)
    else if 'A' ≤ c ∧ c ≤ 'Z' then some (c.toNat - 'A'.toNat + 10)
    else none
  value?.filter (· < base)

/-- Reads a magnitude of at most `limit`. -/
def magnitude (base limit : Nat) (outOfRange : LiteralError) :
    Nat → List Char → Except LiteralError Nat
  | value, [] => .ok value
  | value, c :: rest =>
    match digitValue? base c with
    | none => .error .invalidDigit
    | some digit =>
      let next := value * base + digit
      if limit < next then .error outOfRange
      else magnitude base limit outOfRange next rest

/-- Reads an optional sign and at least one digit, for a value in `-below..above`. -/
def signedInteger (base below above : Nat) : List Char → Except LiteralError Int
  | [] => .error .emptyInteger
  | ['+'] | ['-'] => .error .invalidDigit
  | '+' :: digits => (magnitude base above .tooLarge 0 digits).map Int.ofNat
  | '-' :: digits =>
    (magnitude base below .tooSmall 0 digits).map (fun n : Nat => -(n : Int))
  | digits => (magnitude base above .tooLarge 0 digits).map Int.ofNat

/-- An integer of 64 bits in base ten. -/
def integer64 (text : List Char) : Except LiteralError Int :=
  signedInteger 10 9223372036854775808 9223372036854775807 text

/-- An integer of 64 bits; `0x` in front means base sixteen, and the sign stands behind
it. -/
def prefixedInteger64 : List Char → Except LiteralError Int
  | '0' :: 'x' :: digits =>
    signedInteger 16 9223372036854775808 9223372036854775807 digits
  | text => integer64 text

def isDecimalDigit (c : Char) : Bool := '0' ≤ c && c ≤ '9'

/-- The leading decimal digits and what follows them. -/
def spanDigits (text : List Char) : List Char × List Char := text.span isDecimalDigit

/-- A decimal literal without its sign: the digits before and after the point and the
exponent. -/
structure DecimalLiteral where
  whole : List Char
  fraction : List Char
  exponent : Int
  deriving DecidableEq, Repr

/-- The optional sign in front of a number. -/
def spanSign : List Char → Bool × List Char
  | '+' :: rest => (false, rest)
  | '-' :: rest => (true, rest)
  | text => (false, text)

def digitsValue (digits : List Char) : Nat := Nat.ofDigitChars 10 digits 0

/-- The exponent part: nothing, or a letter `e`, an optional sign and at least one
digit. -/
def exponentPart? : List Char → Option Int
  | [] => some 0
  | mark :: rest =>
    if mark = 'e' ∨ mark = 'E' then
      let (negative, digits) := spanSign rest
      if digits ≠ [] ∧ digits.all isDecimalDigit then
        some (if negative then -(digitsValue digits : Int) else digitsValue digits)
      else none
    else none

/-- The digits after a point, if there is one, and what follows them. -/
def fractionPart : List Char → List Char × List Char
  | '.' :: rest => spanDigits rest
  | rest => ([], rest)

def decimalLiteral? (text : List Char) : Option DecimalLiteral :=
  let (whole, afterWhole) := spanDigits text
  let (fraction, afterFraction) := fractionPart afterWhole
  if whole = [] ∧ fraction = [] then none
  else (exponentPart? afterFraction).map (fun exponent => ⟨whole, fraction, exponent⟩)

namespace DecimalLiteral

/-- The literal denotes `digits · 10 ^ scale`. -/
def digits (literal : DecimalLiteral) : Nat :=
  digitsValue (literal.whole ++ literal.fraction)

def scale (literal : DecimalLiteral) : Int := literal.exponent - literal.fraction.length

/-- The double nearest to the literal. Scales far outside the range of doubles are
settled by the number of digits alone, so no huge power of ten is computed. -/
def value (literal : DecimalLiteral) (negative : Bool) : Float :=
  let digitCount : Int := literal.whole.length + literal.fraction.length
  if literal.digits = 0 then ofPattern negative 0
  else if 400 < literal.scale then infinity negative
  else if literal.scale + digitCount < -400 then ofPattern negative 0
  else
    nearest negative (literal.digits * Nat.pow 10 literal.scale.toNat)
      (Nat.pow 10 (-literal.scale).toNat)

end DecimalLiteral

/-- Whether the text is the word, which is in lower case, in any case. -/
def isWord (word : String) (text : List Char) : Bool :=
  text.map Char.toLower == word.toList

/-- A name of infinity or of what is not a number, or a decimal literal, behind an
optional sign. -/
def float (text : List Char) : Except LiteralError Float :=
  if text = [] then .error .emptyFloat
  else
    let (negative, rest) := spanSign text
    if isWord "inf" rest || isWord "infinity" rest then .ok (infinity negative)
    else if isWord "nan" rest then .ok notANumber
    else match decimalLiteral? rest with
      | some literal => .ok (literal.value negative)
      | none => .error .invalidFloat

end TimingReport.Number
