import Funge93.Text.Blank
import Funge93.Text.Lines
import Funge93.Torus

/-!
# Program space

Program space holds one character at each place of the torus, and a program may
change it while it runs. A program text is laid out from the top left corner,
one line in each row; what lies beyond the right or the bottom edge is left out
and what is not covered is a space. The listing goes the other way: the rows as
text, without the spaces that end a row and the empty rows at the bottom.
-/

namespace Funge93

/-- The characters of program space, row by row. -/
structure Grid where
  rows : Vector (Vector Char Torus.width) Torus.height
deriving DecidableEq

namespace Grid

def tabulate (f : Place → Char) : Grid :=
  ⟨Vector.ofFn fun y => Vector.ofFn fun x => f ⟨x, y⟩⟩

def get (g : Grid) (p : Place) : Char :=
  g.rows[p.y][p.x]

def set (g : Grid) (p : Place) (c : Char) : Grid :=
  ⟨g.rows.set p.y.val (g.rows[p.y].set p.x.val c p.x.isLt) p.y.isLt⟩

def blank : Grid :=
  tabulate fun _ => ' '

/-- The lines laid out from the top left corner. -/
def ofLines (lines : List (List Char)) : Grid :=
  tabulate fun p => ((lines[p.y.val]?.getD [])[p.x.val]?).getD ' '

/-- The program space that a text describes. -/
def load (source : String) : Grid :=
  ofLines (Text.lines Torus.height source.toList)

def toRows (g : Grid) : List (List Char) :=
  g.rows.toList.map Vector.toList

/-- The rows without the spaces at their ends, and without the empty rows at the
bottom. -/
def listing (g : Grid) : List (List Char) :=
  ((g.toRows.map (Text.dropEnd (· == ' '))).reverse.dropWhile List.isEmpty).reverse

@[simp] theorem get_tabulate (f : Place → Char) (p : Place) : (tabulate f).get p = f p := by
  simp [tabulate, get]

theorem get_set (g : Grid) (p q : Place) (c : Char) :
    (g.set p c).get q = if q = p then c else g.get q := by
  obtain ⟨px, py⟩ := p
  obtain ⟨qx, qy⟩ := q
  by_cases hy : py = qy
  · subst hy
    by_cases hx : px = qx
    · subst hx; simp [set, get]
    · have h : px.val ≠ qx.val := fun e => hx (Fin.ext e)
      simp [set, get, h, Ne.symm hx]
  · have h : py.val ≠ qy.val := fun e => hy (Fin.ext e)
    simp [set, get, h, Ne.symm hy]

end Grid

end Funge93
