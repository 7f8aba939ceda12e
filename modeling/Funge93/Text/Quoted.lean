import Funge93.Text.Pictured

/-!
# Quoted characters

A single character is shown between single quotes. The quote itself and the
backslash are escaped, the four commonest control characters have short names,
and every other character without a picture is shown by its code in lower-case
hexadecimal digits. So the text between the quotes is pictured throughout, and
it tells which character is meant.
-/

namespace Funge93.Text

/-- A character by its code: `\u{1b}`. -/
def codeEscape (c : Char) : List Char :=
  '\\' :: 'u' :: '\x7b' :: (Nat.toDigits 16 c.toNat ++ ['\x7d'])

/-- A character as it stands between single quotes. -/
def escaped (c : Char) : List Char :=
  if c = '\x00' then ['\\', '0']
  else if c = '\t' then ['\\', 't']
  else if c = '\n' then ['\\', 'n']
  else if c = '\r' then ['\\', 'r']
  else if c = '\x27' then ['\\', '\x27']
  else if c = '\\' then ['\\', '\\']
  else if isPictured c then [c]
  else codeEscape c

/-- A character between single quotes. -/
def quoted (c : Char) : String :=
  String.ofList ('\x27' :: (escaped c ++ ['\x27']))

end Funge93.Text
