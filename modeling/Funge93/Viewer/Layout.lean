import Funge93.Torus

/-!
# The layout of the window

The window is a page of text rows with a margin around it. From the top down it
holds the header, the program space, the status line, the last lines of the log
and the prompt. A row of program space is one text row, so everything is placed
by counting rows, and cells are placed by counting columns as well.

All measures are in whole pixels.
-/

namespace Funge93.Viewer.Layout

def fontSize : Nat := 16

def cellWidth : Nat := 10

/-- The height of a cell and of a text row. -/
def cellHeight : Nat := 18

def margin : Nat := 12

def logRows : Nat := 10

/-- The number of text rows: header, program space, status, log and prompt. -/
def textRows : Nat := 1 + Torus.height + 1 + logRows + 1

def headerRow : Nat := 0

def statusRow : Nat := 1 + Torus.height

def logRow : Nat := statusRow + 1

def promptRow : Nat := logRow + logRows

def windowWidth : Nat := margin * 2 + cellWidth * Torus.width

def windowHeight : Nat := margin * 2 + cellHeight * textRows

/-- Where program space begins, from the top. -/
def gridTop : Nat := margin + cellHeight

/-- A point of the window, counted from the top left corner. -/
structure Point where
  x : Nat
  y : Nat
deriving DecidableEq

def rowOrigin (row : Nat) : Point :=
  ⟨margin, margin + cellHeight * row⟩

def cellOrigin (p : Place) : Point :=
  ⟨margin + cellWidth * p.x.val, gridTop + cellHeight * p.y.val⟩

end Funge93.Viewer.Layout
