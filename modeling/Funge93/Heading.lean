import Funge93.Text.Decimal

/-!
# Headings

The instruction pointer faces one of four ways and moves by one whole cell at a
time. Rows are counted downwards, as on a page, so south is the way in which
the second coordinate grows.
-/

namespace Funge93

inductive Heading where
  | east
  | west
  | south
  | north
deriving DecidableEq

namespace Heading

/-- All headings, in the order in which a random turn ranks them. -/
def all : List Heading :=
  [east, west, south, north]

/-- The change of the column when moving one cell. -/
def dx : Heading → Int
  | east => 1
  | west => -1
  | south => 0
  | north => 0

def dy : Heading → Int
  | east => 0
  | west => 0
  | south => 1
  | north => -1

/-- A heading is shown as its move, with both signs written: `(+1,+0)`. -/
def text (h : Heading) : String :=
  "(" ++ Text.signed h.dx ++ "," ++ Text.signed h.dy ++ ")"

end Heading

end Funge93
