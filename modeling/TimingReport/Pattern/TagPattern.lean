import TimingReport.Pattern.CharClass

/-!
# Tag patterns

A pattern is read from left to right. Groups that are still open wait on a stack; flags
hold from where they are set to the end of the group around them.
-/

namespace TimingReport.Pattern

/-- The flags in force. -/
structure Flags where
  ignoreCase : Bool
  multiLine : Bool
  dotNewline : Bool
  deriving DecidableEq, Repr

def Flags.none : Flags := ⟨false, false, false⟩

/-- A part of a sequence. -/
inductive Item where
  | regex (part : Regex)
  /-- Set flags, which match nothing and cannot be repeated. -/
  | flags

def Item.toRegex : Item → Regex
  | .regex part => part
  | .flags => .empty

/-- The branches of an open group, in reverse order, and the items of the last branch,
in reverse order. -/
structure Branches where
  finished : List Regex
  items : List Item

namespace Branches

def empty : Branches := ⟨[], []⟩

def lastBranch (branches : Branches) : Regex :=
  branches.items.foldl (fun regex item => .sequence item.toRegex regex) .empty

def toRegex (branches : Branches) : Regex :=
  branches.finished.foldl (fun regex branch => .choice branch regex) branches.lastBranch

def push (branches : Branches) (regex : Regex) : Branches :=
  { branches with items := .regex regex :: branches.items }

def nextBranch (branches : Branches) : Branches :=
  ⟨branches.lastBranch :: branches.finished, []⟩

def repeatLast (branches : Branches) (least : Nat) (most : Option Nat) :
    Except PatternError Branches :=
  match branches.items with
  | .regex regex :: items =>
    .ok { branches with items := .regex (.repetition regex least most) :: items }
  | _ => .error .nothingToRepeat

end Branches

/-- A pattern that has been read in part. -/
structure PartialPattern where
  flags : Flags
  names : List (List Char)
  branches : Branches
  /-- The groups around the open one, innermost first, with the flags that hold behind
  it. -/
  outer : List (Flags × Branches)

/-- Reads the flags up to `)` or `:`, which is given too. `negated` tells whether a
minus sign came before and `seen` which flags were given. A letter may be given once,
and a minus sign once and not at the end. -/
def groupFlags (flags : Flags) (negated : Bool) (seen : List Char) :
    List Char → Except PatternError (Flags × Char × List Char)
  | [] => .error .groupFlags
  | c :: rest =>
    if c = ')' ∨ c = ':' then
      if seen.head? = some '-' then .error .groupFlags else .ok (flags, c, rest)
    else if seen.contains c then .error .groupFlags
    else match c with
      | '-' => groupFlags flags true (c :: seen) rest
      | 'i' => groupFlags { flags with ignoreCase := !negated } negated (c :: seen) rest
      | 'm' => groupFlags { flags with multiLine := !negated } negated (c :: seen) rest
      | 's' => groupFlags { flags with dotNewline := !negated } negated (c :: seen) rest
      | 'U' => groupFlags flags negated (c :: seen) rest
      | _ => .error .groupFlags

def isNameStart (c : Char) : Bool :=
  c = '_' || (Text.isWordChar c && !Text.inRanges Text.decimalDigitRanges c)

def isNameChar (c : Char) : Bool := Text.isWordChar c || c = '.' || c = '[' || c = ']'

namespace PartialPattern

def openGroup (pattern : PartialPattern) (inner : Flags) : PartialPattern :=
  { pattern with
    flags := inner
    branches := .empty
    outer := (pattern.flags, pattern.branches) :: pattern.outer }

/-- Opens the group whose name the text begins with. -/
def openNamed (pattern : PartialPattern) (text : List Char) :
    Except PatternError (PartialPattern × List Char) :=
  let name := text.takeWhile (· ≠ '>')
  match text.dropWhile (· ≠ '>') with
  | [] => .error .groupName
  | _ :: rest =>
    if !name.head?.any isNameStart || !name.all isNameChar then .error .groupName
    else if pattern.names.contains name then .error .duplicateName
    else
      let opened := pattern.openGroup pattern.flags
      .ok ({ opened with names := name :: pattern.names }, rest)

/-- Sets flags, or opens a group in which they hold. -/
def openFlags (pattern : PartialPattern) (text : List Char) :
    Except PatternError (PartialPattern × List Char) :=
  match groupFlags pattern.flags false [] text with
  | .error error => .error error
  | .ok (flags, ':', rest) => .ok (pattern.openGroup flags, rest)
  | .ok (flags, _, rest) =>
    if text.head? = some ')' then .error .nothingToRepeat
    else
      let branches :=
        { pattern.branches with items := .flags :: pattern.branches.items }
      .ok ({ pattern with flags, branches }, rest)

/-- What an opening parenthesis in front of the text does. -/
def openParenthesis (pattern : PartialPattern) :
    List Char → Except PatternError (PartialPattern × List Char)
  | '?' :: '=' :: _ | '?' :: '!' :: _
  | '?' :: '<' :: '=' :: _ | '?' :: '<' :: '!' :: _ => .error .lookAround
  | '?' :: 'P' :: '<' :: rest | '?' :: '<' :: rest => pattern.openNamed rest
  | '?' :: rest => pattern.openFlags rest
  | rest => .ok (pattern.openGroup pattern.flags, rest)

def closeGroup (pattern : PartialPattern) : Except PatternError PartialPattern :=
  match pattern.outer with
  | [] => .error .unopenedGroup
  | (flags, enclosing) :: outer =>
    let branches := enclosing.push pattern.branches.toRegex
    .ok { pattern with flags, branches, outer }

def push (pattern : PartialPattern) (regex : Regex) : PartialPattern :=
  { pattern with branches := pattern.branches.push regex }

def repeatLast (pattern : PartialPattern) (least : Nat) (most : Option Nat)
    (rest : List Char) :
    Except PatternError (PartialPattern × List Char) :=
  let rest := match rest with
    | '?' :: rest => rest
    | _ => rest
  (pattern.branches.repeatLast least most).map
    (fun branches => ({ pattern with branches }, rest))

def literal (pattern : PartialPattern) (c : Char) : PartialPattern :=
  pattern.push (.set (.single pattern.flags.ignoreCase c))

def dot (pattern : PartialPattern) : PartialPattern :=
  let left := if pattern.flags.dotNewline then .empty else .single false '\n'
  pattern.push (.set (.complement left))

end PartialPattern

/-- A number of repetitions with blanks around it. -/
def repetitionCount (text : List Char) : Except PatternError (Nat × List Char) :=
  let text := text.dropWhile Text.isBlank
  let digits := text.takeWhile Char.isDigit
  let count := Nat.ofDigitChars 10 digits 0
  if digits = [] ∨ 4294967296 ≤ count then .error .repetitionCount
  else .ok (count, (text.dropWhile Char.isDigit).dropWhile Text.isBlank)

/-- The least and the greatest number of repetitions between braces, the first of which
is in front of the text. -/
def repetitionRange (text : List Char) :
    Except PatternError (Nat × Option Nat × List Char) :=
  match repetitionCount text with
  | .error error => .error error
  | .ok (least, '}' :: rest) => .ok (least, some least, rest)
  | .ok (least, ',' :: '}' :: rest) => .ok (least, none, rest)
  | .ok (least, ',' :: rest) =>
    match repetitionCount rest with
    | .ok (most, '}' :: rest) =>
      if least ≤ most then .ok (least, some most, rest) else .error .repetitionCount
    | _ => .error .repetitionCount
  | .ok _ => .error .repetitionCount

/-- Takes in what the character `c` and the text behind it begin with. -/
def PartialPattern.next (pattern : PartialPattern) (c : Char) (rest : List Char) :
    Except PatternError (PartialPattern × List Char) :=
  match c with
  | '(' => pattern.openParenthesis rest
  | ')' => pattern.closeGroup.map (·, rest)
  | '|' => .ok ({ pattern with branches := pattern.branches.nextBranch }, rest)
  | '[' =>
    (charClass pattern.flags.ignoreCase rest).map
      (fun (set, rest) => (pattern.push (.set set), rest))
  | '?' => pattern.repeatLast 0 (some 1) rest
  | '*' => pattern.repeatLast 0 none rest
  | '+' => pattern.repeatLast 1 none rest
  | '{' =>
    (repetitionRange rest).bind
      (fun (least, most, rest) => pattern.repeatLast least most rest)
  | '.' => .ok (pattern.dot, rest)
  | '^' =>
    let start := if pattern.flags.multiLine then .lineStart else .textStart
    .ok (pattern.push (.assertion start), rest)
  | '$' =>
    let stop := if pattern.flags.multiLine then .lineEnd else .textEnd
    .ok (pattern.push (.assertion stop), rest)
  | '\\' =>
    (escape rest).map fun
      | (.literal c, rest) => (pattern.literal c, rest)
      | (.set set, rest) => (pattern.push (.set set), rest)
      | (.assertion assertion, rest) => (pattern.push (.assertion assertion), rest)
  | c => .ok (pattern.literal c, rest)

/-- Reads the rest of a pattern; every step takes at least one character. -/
def PartialPattern.readAll :
    Nat → PartialPattern → List Char → Except PatternError Regex
  | _, pattern, [] =>
    if pattern.outer.isEmpty then .ok pattern.branches.toRegex
    else .error .unclosedGroup
  | 0, _, _ => .error .unclosedGroup
  | steps + 1, pattern, c :: rest =>
    match pattern.next c rest with
    | .ok (pattern, rest) => readAll steps pattern rest
    | .error error => .error error

def regexOfText (text : List Char) : Except PatternError Regex :=
  PartialPattern.readAll text.length ⟨.none, [], .empty, []⟩ text

/-- A pattern on tags: the text it was read from, and whether some part of a tag
matches. -/
structure TagPattern where
  text : String
  selects : String → Bool

def TagPattern.ofText (text : String) : Except PatternError TagPattern :=
  (regexOfText text.toList).map fun regex =>
    ⟨text, fun tag => regex.isMatch tag.toList⟩

/-- What makes patterns of texts, if they are patterns. -/
abbrev Compiler := String → Option TagPattern

/-- The compiler of the patterns that are read here. -/
def Compiler.reference : Compiler := fun text => (TagPattern.ofText text).toOption

end TimingReport.Pattern
