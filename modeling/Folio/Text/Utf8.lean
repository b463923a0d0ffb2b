/-!
# Bytes of a text

Stored values and wire messages are byte sequences.  A text becomes bytes by its
UTF-8 encoding, and only well-formed UTF-8 becomes a text again.
-/

namespace Folio

abbrev Bytes := List UInt8

namespace Text

def utf8 (text : String) : Bytes := text.toList.flatMap String.utf8EncodeChar

/-- The text whose UTF-8 bytes these are, if they are well formed. -/
def ofUtf8? (bytes : Bytes) : Option String := String.fromUTF8? bytes.toByteArray

theorem toByteArray_utf8 (text : String) : (utf8 text).toByteArray = text.toByteArray := by
  have h : (String.ofList text.toList).toByteArray = text.toByteArray := by
    rw [String.ofList_toList]
  rw [← h, String.toByteArray_ofList]
  rfl

@[simp] theorem ofUtf8?_utf8 (text : String) : ofUtf8? (utf8 text) = some text := by
  rw [ofUtf8?, toByteArray_utf8, String.fromUTF8?, dif_pos text.isValidUTF8]
  rfl

end Text

end Folio
