/-!
Contract: text as the bytes of its UTF-8 form.

Owns:
- `bytes`, the UTF-8 bytes of a text;
- `ofBytes?`, the text that a byte string spells, if it is well-formed UTF-8;
- the law by which a text is read from its bytes.

Does not own: the escapes of any format.
-/

namespace RoomLedger.Text

abbrev Bytes := List UInt8

def bytes (text : String) : Bytes :=
  text.toByteArray.data.toList

/-- The text whose UTF-8 form the bytes are, if there is one. -/
def ofBytes? (content : Bytes) : Option String :=
  String.fromUTF8? ⟨content.toArray⟩

@[simp] theorem ofBytes?_bytes (text : String) : ofBytes? (bytes text) = some text := by
  have valid : (⟨(bytes text).toArray⟩ : ByteArray).IsValidUTF8 := text.isValidUTF8
  simp only [ofBytes?, String.fromUTF8?, valid, dite_true]
  rfl

end RoomLedger.Text
