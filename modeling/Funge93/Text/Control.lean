/-!
# Control characters

The control characters are those of the Unicode category Cc: the first 32
characters, delete, and the 32 that follow it. They have no picture of their
own, so whoever shows a character has to put something in their place.
-/

namespace Funge93.Text

/-- A control character: one of the category Cc. -/
def isControl (c : Char) : Bool :=
  c.toNat < 0x20 || (0x7F ≤ c.toNat && c.toNat ≤ 0x9F)

end Funge93.Text
