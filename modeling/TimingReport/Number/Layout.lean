import TimingReport.Number.Shortest

/-!
# How numbers are written

A layout says which magnitudes are written positionally and how an exponent looks; the
digits are always the fewest that read back. `plain` is used in messages, `json` in JSON
texts and `log` in log lines.
-/

namespace TimingReport.Number

/-- The decisions of a number format. -/
structure Layout where
  /-- Positional from `10 ^ fst` up to below `10 ^ snd`; always, if absent. -/
  positional : Option (Int × Int)
  /-- Whether an integral value written positionally ends in `.0`. -/
  pointZero : Bool
  /-- Whether a positive exponent has a sign. -/
  exponentPlus : Bool
  tie : Tie
  deriving DecidableEq, Repr

def Layout.plain : Layout := ⟨none, false, false, .up⟩

def Layout.json : Layout := ⟨some (-5, 16), true, true, .toEven⟩

def Layout.log : Layout := ⟨some (-5, 16), true, false, .up⟩

def decimalDigits (n : Nat) : List Char := Nat.toDigits 10 n

def zeros (count : Int) : List Char := List.replicate count.toNat '0'

/-- The digits `digits` with the point after the first `point` of them. -/
def Layout.positionalText (layout : Layout) (digits : List Char) (point : Int) :
    List Char :=
  if point ≤ 0 then ['0', '.'] ++ zeros (-point) ++ digits
  else if point < digits.length then
    digits.take point.toNat ++ '.' :: digits.drop point.toNat
  else
    digits ++ zeros (point - digits.length) ++
      (if layout.pointZero then ['.', '0'] else [])

/-- One digit before the point and the power of ten `exponent` behind. -/
def Layout.scientificText (layout : Layout) (digits : List Char) (exponent : Int) :
    List Char :=
  let rest := digits.drop 1
  let sign := if exponent < 0 then ['-'] else if layout.exponentPlus then ['+'] else []
  digits.take 1 ++ (if rest.isEmpty then [] else '.' :: rest) ++ 'e' :: sign ++
    decimalDigits exponent.natAbs

def Layout.decimalText (layout : Layout) (decimal : Decimal) : List Char :=
  let digits := decimalDigits decimal.digits
  let point := (digits.length : Int) + decimal.exponent
  match layout.positional with
  | none => layout.positionalText digits point
  | some (low, high) =>
    if low < point ∧ point ≤ high then layout.positionalText digits point
    else layout.scientificText digits (point - 1)

def Layout.magnitudeText (layout : Layout) (mantissa : Nat) (exponent : Int) :
    List Char :=
  if mantissa = 0 then '0' :: (if layout.pointZero then ['.', '0'] else [])
  else layout.decimalText (shortest layout.tie mantissa exponent)

def signText (negative : Bool) : List Char := if negative then ['-'] else []

/-- The number in words or digits; what is not a number has no sign. -/
def Parts.chars (finiteText : Nat → Int → List Char) : Parts → List Char
  | .nan => ['N', 'a', 'N']
  | .infinite negative => signText negative ++ ['i', 'n', 'f']
  | .finite negative mantissa exponent =>
    signText negative ++ finiteText mantissa exponent

def Layout.chars (layout : Layout) (x : Float) : List Char :=
  (parts x).chars layout.magnitudeText

def Layout.text (layout : Layout) (x : Float) : String := String.ofList (layout.chars x)

end TimingReport.Number
