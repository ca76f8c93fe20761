import TimingReport.Text.Blank
import TimingReport.Text.CaseFold
import TimingReport.Text.Word

/-!
# Sets of characters

The character sets of tag patterns: ranges of code points, the classes of all scripts
and their combinations.
-/

namespace TimingReport.Pattern

inductive CharSet where
  | empty
  /-- The code points `low..high`, and with `anyCase` also those that differ from them
  only in case. -/
  | range (low high : Nat) (anyCase : Bool)
  | word
  | decimalDigit
  | blank
  | union (left right : CharSet)
  | intersection (left right : CharSet)
  | complement (set : CharSet)
  deriving DecidableEq, Repr

namespace CharSet

def contains (set : CharSet) (c : Char) : Bool :=
  match set with
  | .empty => false
  | .range low high anyCase =>
    let inside (code : Nat) : Bool := low ≤ code && code ≤ high
    inside c.toNat || (anyCase && (Text.caseVariants c.toNat).any inside)
  | .word => Text.isWordChar c
  | .decimalDigit => Text.inRanges Text.decimalDigitRanges c
  | .blank => Text.isBlank c
  | .union left right => left.contains c || right.contains c
  | .intersection left right => left.contains c && right.contains c
  | .complement set => !set.contains c

def single (anyCase : Bool) (c : Char) : CharSet := .range c.toNat c.toNat anyCase

def difference (left right : CharSet) : CharSet :=
  .intersection left (.complement right)

def symmetricDifference (left right : CharSet) : CharSet :=
  .union (left.difference right) (right.difference left)

def negateIf (negated : Bool) (set : CharSet) : CharSet :=
  if negated then .complement set else set

def ofRanges (anyCase : Bool) (ranges : List (Char × Char)) : CharSet :=
  ranges.foldr
    (fun range set => .union (.range range.1.toNat range.2.toNat anyCase) set) .empty

end CharSet

/-- The named classes, which hold ASCII characters alone. -/
def namedRanges : List (String × List (Char × Char)) :=
  [("alnum", [('0', '9'), ('A', 'Z'), ('a', 'z')]),
   ("alpha", [('A', 'Z'), ('a', 'z')]),
   ("ascii", [('\x00', '\x7f')]),
   ("blank", [('\t', '\t'), (' ', ' ')]),
   ("cntrl", [('\x00', '\x1f'), ('\x7f', '\x7f')]),
   ("digit", [('0', '9')]),
   ("graph", [('!', '~')]),
   ("lower", [('a', 'z')]),
   ("print", [(' ', '~')]),
   ("punct", [('!', '/'), (':', '@'), ('[', '\x60'), ('\x7b', '~')]),
   ("space", [('\t', '\r'), (' ', ' ')]),
   ("upper", [('A', 'Z')]),
   ("word", [('0', '9'), ('A', 'Z'), ('_', '_'), ('a', 'z')]),
   ("xdigit", [('0', '9'), ('A', 'F'), ('a', 'f')])]

end TimingReport.Pattern
