/-!
# Text in bytes

Bytes are a text if they are the UTF-8 form of one. Of other bytes, the length of the
longest leading part made of whole characters tells where the fault lies.
-/

namespace TimingReport.Text

/-- The end of the whole characters that follow one another from position `start`. -/
def wholeCharactersFrom (bytes : ByteArray) (start : Nat) : Nat :=
  if start < bytes.size then
    match bytes.utf8DecodeChar? start with
    | some c => wholeCharactersFrom bytes (start + c.utf8Size)
    | none => start
  else start
termination_by bytes.size - start
decreasing_by
  have hpositive := c.utf8Size_pos
  omega

/-- The length of the valid leading part. -/
def validLength (bytes : ByteArray) : Nat := wholeCharactersFrom bytes 0

/-- The text that the bytes are the UTF-8 form of, or the length of their valid leading
part. -/
def decodeUtf8 (bytes : ByteArray) : Except Nat String :=
  match String.fromUTF8? bytes with
  | some text => .ok text
  | none => .error (validLength bytes)

theorem decodeUtf8_toUTF8 (text : String) : decodeUtf8 text.toUTF8 = .ok text := by
  have htext : String.fromUTF8? text.toUTF8 = some text := dif_pos text.isValidUTF8
  rw [decodeUtf8, htext]

end TimingReport.Text
