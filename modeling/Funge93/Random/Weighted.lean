import Funge93.Heading

/-!
# Weighted headings

A random turn favours two of the headings: east and south have three chances in
ten each, west and north two. A random word decides by its upper 52 bits, read as
a fraction below one. The unit interval is cut at the sums of the weights, and
each of its four parts belongs to one heading.

The cuts are the sums as doubles round them, so the first lies a little below
three tenths and the last a little above eight. They are kept as multiples of
`1 / 18014398509481984`, the spacing that holds all of them exactly, and the
fraction in the word is four times its upper bits in that unit.
-/

namespace Funge93.Random

/-- The weight of a heading, in tenths. -/
def tenths : Heading → Nat
  | .east => 3
  | .west => 2
  | .south => 3
  | .north => 2

/-- Where the unit interval is cut. -/
def cuts : List Nat :=
  [5404319552844595, 9007199254740992, 14411518807585588]

/-- The part of the unit interval that a word falls into: the number of cuts that
it does not lie below. -/
def part (w : UInt64) : Nat :=
  cuts.countP (fun c => c ≤ 4 * (w >>> 12).toNat)

/-- The heading that a word decides on. -/
def heading (w : UInt64) : Heading :=
  match part w with
  | 0 => .east
  | 1 => .west
  | 2 => .south
  | _ => .north

end Funge93.Random
