import Funge93.Text.Blank
import Funge93.Word

/-!
# Typed input

A program asks for input in one of two ways, and is answered with a line of
text. Asked for a character, it gets the code of the first one. Asked for an
integer, it gets the value of the numeral that the line holds between its blank
ends. No line is refused: where there is nothing to read, the answer is zero.
-/

namespace Funge93

inductive Input where
  | integer
  | character
deriving DecidableEq

namespace Input

/-- What is shown while the program waits. -/
def prompt : Input → String
  | integer => "Input(int): "
  | character => "Input(char): "

/-- The short name that the log uses. -/
def label : Input → String
  | integer => "int"
  | character => "char"

/-- The digits of a numeral whose digit groups are joined by single underscores.
The flag tells whether a digit has just been read: an underscore and the end may
only follow a digit. -/
def groupedDigits? : (afterDigit : Bool) → List Char → Option (List Char)
  | afterDigit, [] => if afterDigit then some [] else none
  | afterDigit, c :: rest =>
    if c.isDigit then (groupedDigits? true rest).map (c :: ·)
    else if c = '_' ∧ afterDigit then groupedDigits? false rest
    else none

def natural? (text : List Char) : Option Nat :=
  (groupedDigits? false text).map (fun ds => Nat.ofDigitChars 10 ds 0)

/-- The value of a numeral: digit groups with no more than one sign in front. -/
def numeral? : List Char → Option Int
  | '+' :: rest => (natural? rest).map Int.ofNat
  | '-' :: rest => (natural? rest).map (fun n => -Int.ofNat n)
  | text => (natural? text).map Int.ofNat

/-- The word that an integer is, if it fits into one. -/
def word? (n : Int) : Option Word :=
  if Int64.minValue.toInt ≤ n ∧ n ≤ Int64.maxValue.toInt then some (Int64.ofInt n) else none

/-- The integer that a line holds, and zero if it holds none that fits a word. -/
def readInteger (line : String) : Word :=
  ((numeral? (Text.trim line.toList)).bind word?).getD 0

/-- The code of the first character of a line, and zero for the empty line. -/
def readCharacter (line : String) : Word :=
  (line.toList.head?.map Word.ofChar).getD 0

def read : Input → String → Word
  | integer => readInteger
  | character => readCharacter

end Input

end Funge93
