import TimingReport.Pattern.Escape

/-!
# Bracketed classes in patterns

A class lists characters, ranges, escapes, named classes and nested classes, and may
combine them with the operations `&&`, `--` and `~~`. A hyphen or a closing bracket
right behind the opening one stands for itself.
-/

namespace TimingReport.Pattern

inductive SetOperation where
  | intersection
  | difference
  | symmetricDifference
  deriving DecidableEq, Repr

def SetOperation.apply : SetOperation → CharSet → CharSet → CharSet
  | .intersection => .intersection
  | .difference => CharSet.difference
  | .symmetricDifference => CharSet.symmetricDifference

/-- An open class. -/
structure OpenClass where
  negated : Bool
  /-- The operand and the operation that wait for the items read now. -/
  waiting : Option (CharSet × SetOperation)
  items : CharSet

namespace OpenClass

def add (cls : OpenClass) (set : CharSet) : OpenClass :=
  { cls with items := .union cls.items set }

/-- The items, combined with the operand that waits for them. -/
def operand (cls : OpenClass) : CharSet :=
  match cls.waiting with
  | none => cls.items
  | some (left, operation) => operation.apply left cls.items

def operate (cls : OpenClass) (operation : SetOperation) : OpenClass :=
  { cls with waiting := some (cls.operand, operation), items := .empty }

def close (cls : OpenClass) : CharSet := cls.operand.negateIf cls.negated

/-- The class opened by the bracket in front of the text. -/
def start (anyCase : Bool) (text : List Char) : OpenClass × List Char :=
  let (negated, text) := match text with
    | '^' :: rest => (true, rest)
    | _ => (false, text)
  let hyphens := text.takeWhile (· = '-')
  let rest := text.dropWhile (· = '-')
  let items : CharSet := if hyphens.isEmpty then .empty else .single anyCase '-'
  match hyphens, rest with
  | [], ']' :: rest => (⟨negated, none, .single anyCase ']'⟩, rest)
  | _, _ => (⟨negated, none, items⟩, rest)

end OpenClass

/-- A named class such as `:alpha:]`, the text being what follows its opening bracket.
-/
def namedClass? (anyCase : Bool) : List Char → Option (CharSet × List Char)
  | ':' :: rest =>
    let (negated, rest) := match rest with
      | '^' :: rest => (true, rest)
      | _ => (false, rest)
    let name := rest.takeWhile (· ≠ ':')
    match rest.dropWhile (· ≠ ':') with
    | ':' :: ']' :: after =>
      (namedRanges.lookup (String.ofList name)).map
        (fun ranges => ((CharSet.ofRanges anyCase ranges).negateIf negated, after))
    | _ => none
  | _ => none

/-- One character or escape of a class. -/
def classItem : List Char → Except PatternError (Escape × List Char)
  | [] => .error .unclosedClass
  | '\\' :: rest => escape rest
  | c :: rest => .ok (.literal c, rest)

def Escape.classSet (anyCase : Bool) : Escape → Except PatternError CharSet
  | .literal c => .ok (.single anyCase c)
  | .set chars => .ok chars
  | .assertion _ => .error .classItem

/-- The range from `low` to the item that the text begins with. -/
def classRange (anyCase : Bool) (low : Escape) (text : List Char) :
    Except PatternError (CharSet × List Char) :=
  match low, classItem text with
  | .literal low, .ok (.literal high, rest) =>
    if low ≤ high then .ok (.range low.toNat high.toNat anyCase, rest)
    else .error .classRange
  | _, .ok _ => .error .classRange
  | _, .error error => .error error

/-- One item or range. A hyphen in front of another hyphen or of the closing bracket
makes no range. -/
def classItems (anyCase : Bool) (text : List Char) :
    Except PatternError (CharSet × List Char) :=
  match classItem text with
  | .error error => .error error
  | .ok (item, []) => (item.classSet anyCase).bind (fun _ => .error .unclosedClass)
  | .ok (item, '-' :: ']' :: rest) =>
    (item.classSet anyCase).map (·, '-' :: ']' :: rest)
  | .ok (item, '-' :: '-' :: rest) =>
    (item.classSet anyCase).map (·, '-' :: '-' :: rest)
  | .ok (item, '-' :: rest) => classRange anyCase item rest
  | .ok (item, rest) => (item.classSet anyCase).map (·, rest)

/-- Reads up to the bracket that closes the outermost class; every step takes at least
one character. -/
def classBody (anyCase : Bool) :
    Nat → OpenClass → List OpenClass → List Char →
      Except PatternError (CharSet × List Char)
  | 0, _, _, _ => .error .unclosedClass
  | _ + 1, _, _, [] => .error .unclosedClass
  | steps + 1, cls, outer, '[' :: rest =>
    match namedClass? anyCase rest with
    | some (set, after) => classBody anyCase steps (cls.add set) outer after
    | none =>
      let (inner, after) := OpenClass.start anyCase rest
      classBody anyCase steps inner (cls :: outer) after
  | steps + 1, cls, outer, ']' :: rest =>
    match outer with
    | [] => .ok (cls.close, rest)
    | enclosing :: outer => classBody anyCase steps (enclosing.add cls.close) outer rest
  | steps + 1, cls, outer, '&' :: '&' :: rest =>
    classBody anyCase steps (cls.operate .intersection) outer rest
  | steps + 1, cls, outer, '-' :: '-' :: rest =>
    classBody anyCase steps (cls.operate .difference) outer rest
  | steps + 1, cls, outer, '~' :: '~' :: rest =>
    classBody anyCase steps (cls.operate .symmetricDifference) outer rest
  | steps + 1, cls, outer, text =>
    match classItems anyCase text with
    | .ok (set, rest) => classBody anyCase steps (cls.add set) outer rest
    | .error error => .error error

/-- The class that the text, which follows an opening bracket, begins with. -/
def charClass (anyCase : Bool) (text : List Char) :
    Except PatternError (CharSet × List Char) :=
  let (cls, rest) := OpenClass.start anyCase text
  classBody anyCase (text.length + 1) cls [] rest

end TimingReport.Pattern
