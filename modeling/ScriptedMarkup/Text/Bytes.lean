/-!
# Bytes of a text

Places in a source are counted in the bytes of its UTF-8 form.
-/

namespace ScriptedMarkup.Text

/-- The UTF-8 bytes of a text. -/
def bytes (text : List Char) : List UInt8 := text.flatMap String.utf8EncodeChar

@[simp]
theorem bytes_append (first second : List Char) :
    bytes (first ++ second) = bytes first ++ bytes second := by
  simp [bytes]

/-- A whole text has as many bytes as its string. -/
theorem length_bytes (text : String) : (bytes text.toList).length = text.utf8ByteSize := by
  conv => rhs; rw [← String.ofList_toList (s := text)]
  simp [bytes, String.ofList, List.utf8Encode]

end ScriptedMarkup.Text
