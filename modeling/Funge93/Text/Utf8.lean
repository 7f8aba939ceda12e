/-!
# Text as bytes

Text leaves and enters a run as bytes in UTF-8. Writing a text always works;
reading one fails if the bytes are not well formed, and is never mended.
-/

namespace Funge93.Text

/-- The bytes of a text. -/
def toBytes (text : String) : List UInt8 :=
  text.toList.flatMap String.utf8EncodeChar

/-- The text that bytes spell, if they spell one. -/
def ofBytes? (bytes : List UInt8) : Option String :=
  String.fromUTF8? bytes.toByteArray

end Funge93.Text
