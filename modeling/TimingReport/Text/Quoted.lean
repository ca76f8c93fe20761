import TimingReport.Text.Unprintable

/-!
# Quoted texts in messages

A text in a message stands in double quotes. Quotes and backslashes are escaped, line
breaks and tabs have short escapes, and characters without a glyph are written by their
code point.
-/

namespace TimingReport.Text

/-- The escape `\\u{…}` with the code point in lower-case hexadecimal digits. -/
def codeEscape (c : Char) : List Char :=
  ['\\', 'u', '{'] ++ Nat.toDigits 16 c.toNat ++ ['}']

def quotedChar (c : Char) : List Char :=
  if c = '"' then ['\\', '"']
  else if c = '\\' then ['\\', '\\']
  else if c = '\t' then ['\\', 't']
  else if c = '\n' then ['\\', 'n']
  else if c = '\r' then ['\\', 'r']
  else if c.toNat = 0 then ['\\', '0']
  else if isUnprintable c then codeEscape c
  else [c]

def quotedChars (text : List Char) : List Char :=
  '"' :: text.flatMap quotedChar ++ ['"']

def quoted (text : String) : String := String.ofList (quotedChars text.toList)

end TimingReport.Text
