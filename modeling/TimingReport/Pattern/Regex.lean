import TimingReport.Pattern.CharSet

/-!
# Regular expressions

Whether a text has a part that matches. A set of positions in the text is a number whose
bit `i` stands for position `i`; an expression takes the positions where a match may
begin to those where it may end. Only the expression is recursed on, so there is nothing
to backtrack.
-/

namespace TimingReport.Pattern

/-- Conditions on a position. -/
inductive Assertion where
  | textStart
  | textEnd
  | lineStart
  | lineEnd
  | wordBoundary
  | notWordBoundary
  deriving DecidableEq, Repr

inductive Regex where
  | empty
  | set (chars : CharSet)
  | assertion (condition : Assertion)
  | sequence (first second : Regex)
  | choice (left right : Regex)
  /-- At least `least` and, if given, at most `most` repetitions. -/
  | repetition (body : Regex) (least : Nat) (most : Option Nat)
  deriving DecidableEq, Repr

/-- A set of positions. -/
abbrev Positions := Nat

/-- The positions at which the test holds. -/
def Positions.ofTests (tests : List Bool) : Positions :=
  tests.foldr (fun holds rest => 2 * rest + (if holds then 1 else 0)) 0

def Positions.all (length : Nat) : Positions := (1 <<< (length + 1)) - 1

/-- Whether the condition holds between two neighbouring characters, either of which may
be missing. -/
def Assertion.holds (assertion : Assertion) (before after : Option Char) : Bool :=
  let boundary := before.any Text.isWordChar != after.any Text.isWordChar
  match assertion with
  | .textStart => before.isNone
  | .textEnd => after.isNone
  | .lineStart => before.all (· = '\n')
  | .lineEnd => after.all (· = '\n')
  | .wordBoundary => boundary
  | .notWordBoundary => !boundary

/-- The condition tested at every position of the text behind the character `before`. -/
def Assertion.tests (assertion : Assertion) : Option Char → List Char → List Bool
  | before, [] => [assertion.holds before none]
  | before, c :: rest =>
    assertion.holds before (some c) :: assertion.tests (some c) rest

/-- Applies `step` and gathers the positions, `rounds` times. -/
def Positions.gather (step : Positions → Positions) : Nat → Positions → Positions
  | 0, positions => positions
  | rounds + 1, positions => gather step rounds (positions ||| step positions)

/-- Applies `step` `rounds` times. -/
def Positions.iterate (step : Positions → Positions) : Nat → Positions → Positions
  | 0, positions => positions
  | rounds + 1, positions => iterate step rounds (step positions)

/-- Where matches end that begin at one of the positions. Every round of gathering adds
a position or nothing, so for an unlimited repetition there are as many rounds as
positions. -/
def Regex.ends (text : List Char) (regex : Regex) (starts : Positions) : Positions :=
  match regex with
  | .empty => starts
  | .set chars => (starts &&& Positions.ofTests (text.map chars.contains)) <<< 1
  | .assertion condition => starts &&& Positions.ofTests (condition.tests none text)
  | .sequence first second => second.ends text (first.ends text starts)
  | .choice left right => left.ends text starts ||| right.ends text starts
  | .repetition body least most =>
    let positions := Positions.iterate (body.ends text) least starts
    let rounds := match most with
      | some most => most - least
      | none => text.length + 1
    Positions.gather (body.ends text) (min rounds (text.length + 1)) positions

def Regex.isMatch (regex : Regex) (text : List Char) : Bool :=
  regex.ends text (Positions.all text.length) != 0

end TimingReport.Pattern
