import Funge93.Text.Blank
import Funge93.Text.Utf8

/-!
# Lines of input

Without a window the lines that a program asks for come from a stream of bytes.
Only a line feed ends a line here. What has been read is taken from the stream,
line feed included, and nothing is ever read ahead of a request. When the stream
is used up, every further request gets the empty line.
-/

namespace Funge93.Headless

def lineBytes (input : List UInt8) : List UInt8 :=
  input.takeWhile (· != 10)

def afterLine (input : List UInt8) : List UInt8 :=
  (input.dropWhile (· != 10)).drop 1

/-- A character that may end a line without being part of it. -/
def isLineEnd (c : Char) : Bool :=
  c == '\r' || c == '\n'

/-- The text of the next line without the carriage returns at its end, unless its
bytes spell no text. -/
def line? (input : List UInt8) : Option String :=
  (Text.ofBytes? (lineBytes input)).map fun text =>
    String.ofList (Text.dropEnd isLineEnd text.toList)

end Funge93.Headless
