import TimingReport.Json.Value
import TimingReport.Number.Layout

/-!
# JSON texts

Two ways to write a value: without any blanks, and with one item a line, indented by two
blanks a level. Numbers that JSON has no notation for are written as null.
-/

namespace TimingReport.Json

open TimingReport.Number (Layout)

def hexDigits (width n : Nat) : List Char :=
  let digits := Nat.toDigits 16 n
  List.replicate (width - digits.length) '0' ++ digits

/-- Quotes, backslashes and controls are escaped, and nothing else. -/
def escapeChar (c : Char) : List Char :=
  if c = '"' then ['\\', '"']
  else if c = '\\' then ['\\', '\\']
  else if c = '\x08' then ['\\', 'b']
  else if c = '\x0c' then ['\\', 'f']
  else if c = '\n' then ['\\', 'n']
  else if c = '\r' then ['\\', 'r']
  else if c = '\t' then ['\\', 't']
  else if c.toNat < 32 then ['\\', 'u'] ++ hexDigits 4 c.toNat
  else [c]

def stringText (text : String) : List Char :=
  '"' :: text.toList.flatMap escapeChar ++ ['"']

def integerText : Int → List Char
  | .ofNat n => Number.decimalDigits n
  | .negSucc n => '-' :: Number.decimalDigits (n + 1)

def nullText : List Char := ['n', 'u', 'l', 'l']

def numberText (x : Float) : List Char :=
  if Number.isFinite x then Layout.json.chars x else nullText

def boolText (value : Bool) : List Char :=
  if value then ['t', 'r', 'u', 'e'] else ['f', 'a', 'l', 's', 'e']

/-- Puts `separator` between the items. -/
def separated (separator : List Char) (items : List (List Char)) : List Char :=
  separator.intercalate items

mutual
def Value.compact : Value → List Char
  | .null => nullText
  | .bool value => boolText value
  | .integer value => integerText value
  | .number value => numberText value
  | .string value => stringText value
  | .array items => '[' :: separated [','] (compactItems items) ++ [']']
  | .object members => '{' :: separated [','] (compactMembers members) ++ ['}']

def compactItems : List Value → List (List Char)
  | [] => []
  | item :: rest => item.compact :: compactItems rest

def compactMembers : List (String × Value) → List (List Char)
  | [] => []
  | (key, value) :: rest =>
    (stringText key ++ ':' :: value.compact) :: compactMembers rest
end

/-- A line break and the indentation of a level. -/
def newLine (level : Nat) : List Char := '\n' :: List.replicate (2 * level) ' '

/-- Lines between brackets; without any, the brackets stand together. -/
def bracketed (opening closing : Char) (level : Nat) (lines : List (List Char)) :
    List Char :=
  if lines.isEmpty then [opening, closing]
  else
    let inner := newLine (level + 1)
    opening :: inner ++ separated (',' :: inner) lines ++ newLine level ++ [closing]

mutual
/-- The text of a value that stands at an indentation level. -/
def Value.pretty (level : Nat) : Value → List Char
  | .null => nullText
  | .bool value => boolText value
  | .integer value => integerText value
  | .number value => numberText value
  | .string value => stringText value
  | .array items => bracketed '[' ']' level (prettyItems (level + 1) items)
  | .object members => bracketed '{' '}' level (prettyMembers (level + 1) members)

def prettyItems (level : Nat) : List Value → List (List Char)
  | [] => []
  | item :: rest => item.pretty level :: prettyItems level rest

def prettyMembers (level : Nat) : List (String × Value) → List (List Char)
  | [] => []
  | (key, value) :: rest =>
    (stringText key ++ ':' :: ' ' :: value.pretty level) :: prettyMembers level rest
end

def Value.compactText (value : Value) : String := String.ofList value.compact

def Value.prettyText (value : Value) : String := String.ofList (value.pretty 0)

end TimingReport.Json
