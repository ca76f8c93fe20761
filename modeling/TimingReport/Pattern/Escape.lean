import TimingReport.Pattern.Regex

/-!
# Escapes in patterns

What may follow a backslash, and the reasons for which a pattern is refused.
-/

namespace TimingReport.Pattern

/-- Why a text is not a pattern. -/
inductive PatternError where
  | unclosedGroup
  | unopenedGroup
  | unclosedClass
  | classRange
  | classItem
  | nothingToRepeat
  | repetitionCount
  | danglingBackslash
  | unknownEscape
  | backReference
  | codePoint
  | lookAround
  | groupName
  | duplicateName
  | groupFlags
  deriving DecidableEq, Repr

inductive Escape where
  | literal (c : Char)
  | set (chars : CharSet)
  | assertion (condition : Assertion)

def hexValue? (c : Char) : Option Nat :=
  if '0' ≤ c ∧ c ≤ '9' then some (c.toNat - 48)
  else if 'a' ≤ c ∧ c ≤ 'f' then some (c.toNat - 87)
  else if 'A' ≤ c ∧ c ≤ 'F' then some (c.toNat - 55)
  else none

/-- The character that the hexadecimal digits stand for. -/
def charOfHex (digits : List Char) : Except PatternError Char :=
  if digits = [] then .error .codePoint
  else
    match digits.foldlM (fun value c => (hexValue? c).map (value * 16 + ·)) 0 with
    | some code => if code.isValidChar then .ok (Char.ofNat code) else .error .codePoint
    | none => .error .codePoint

/-- A code point in braces, or as exactly `width` digits. -/
def hexEscape (width : Nat) : List Char → Except PatternError (Escape × List Char)
  | '{' :: rest =>
    match rest.dropWhile (· ≠ '}') with
    | [] => .error .codePoint
    | _ :: after =>
      (charOfHex (rest.takeWhile (· ≠ '}'))).map (fun c => (.literal c, after))
  | rest =>
    if rest.length < width then .error .codePoint
    else (charOfHex (rest.take width)).map (fun c => (.literal c, rest.drop width))

/-- Punctuation that stands for itself behind a backslash. -/
def isEscapable (c : Char) : Bool :=
  c.toNat < 128 && !c.isAlphanum && c ≠ '<' && c ≠ '>'

def simpleEscape? (c : Char) : Option Escape :=
  match c with
  | 'a' => some (.literal '\x07')
  | 'f' => some (.literal '\x0c')
  | 't' => some (.literal '\t')
  | 'n' => some (.literal '\n')
  | 'r' => some (.literal '\r')
  | 'v' => some (.literal '\x0b')
  | 'A' => some (.assertion .textStart)
  | 'z' => some (.assertion .textEnd)
  | 'b' => some (.assertion .wordBoundary)
  | 'B' => some (.assertion .notWordBoundary)
  | 'd' => some (.set .decimalDigit)
  | 'D' => some (.set (.complement .decimalDigit))
  | 's' => some (.set .blank)
  | 'S' => some (.set (.complement .blank))
  | 'w' => some (.set .word)
  | 'W' => some (.set (.complement .word))
  | _ => none

/-- What the text behind a backslash stands for, and the text behind the escape. -/
def escape : List Char → Except PatternError (Escape × List Char)
  | [] => .error .danglingBackslash
  | 'x' :: rest => hexEscape 2 rest
  | 'u' :: rest => hexEscape 4 rest
  | 'U' :: rest => hexEscape 8 rest
  | c :: rest =>
    if c.isDigit then .error .backReference
    else if isEscapable c then .ok (.literal c, rest)
    else match simpleEscape? c with
      | some escape => .ok (escape, rest)
      | none => .error .unknownEscape

end TimingReport.Pattern
