/-!
# Decimal numerals

Every number that a run shows is a plain decimal numeral: no leading zeros, no
grouping, and a minus sign in front of a negative one. Two forms are derived
from it. A signed numeral also marks the numbers that are not negative, and a
padded text is filled up with spaces on the left.
-/

namespace Funge93.Text

/-- The digits of a natural number, most significant first. -/
def digits (n : Nat) : List Char :=
  Nat.toDigits 10 n

/-- The decimal numeral of an integer. -/
def decimal (n : Int) : String :=
  if n < 0 then String.ofList ('-' :: digits n.natAbs) else String.ofList (digits n.natAbs)

/-- The decimal numeral of an integer, with its sign always written. -/
def signed (n : Int) : String :=
  if n < 0 then decimal n else "+" ++ decimal n

/-- Spaces in front of a text, as many as it lacks to a width. -/
def padLeft (width : Nat) (text : String) : String :=
  String.ofList (List.replicate (width - text.length) ' ') ++ text

end Funge93.Text
