import Funge93.Heading

/-!
# The torus

Program space has 80 columns and 25 rows, and its opposite edges are joined.
So every pair of integers names a place, namely the one that it is congruent to
modulo the two sizes, and a move never leaves the space.
-/

namespace Funge93

namespace Torus

abbrev width : Nat := 80

abbrev height : Nat := 25

end Torus

/-- A place on the torus: a column and a row, counted from the top left corner. -/
structure Place where
  x : Fin Torus.width
  y : Fin Torus.height
deriving DecidableEq

namespace Place

def origin : Place :=
  ⟨⟨0, by decide⟩, ⟨0, by decide⟩⟩

/-- All places, row by row. -/
def all : List Place :=
  (List.finRange Torus.height).flatMap fun y => (List.finRange Torus.width).map fun x => ⟨x, y⟩

/-- The place that a pair of integers names. -/
def wrap (x y : Int) : Place where
  x := ⟨(x % 80).toNat, by show (x % 80).toNat < 80; omega⟩
  y := ⟨(y % 25).toNat, by show (y % 25).toNat < 25; omega⟩

def next (p : Place) (h : Heading) : Place :=
  wrap (p.x.val + h.dx) (p.y.val + h.dy)

end Place

end Funge93
