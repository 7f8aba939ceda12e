import Funge93.Session.Display
import Funge93.Viewer.Layout

/-!
# Frames

A frame is what the window shows at one moment, as the list of the things to draw
in their order. First comes the header, then the marks under the cells: the filled
cell of the pointer and the outline of the cell that was just written. The glyphs
of program space lie over the marks, and below them stand the status line, the end
of the log and the prompt. Spaces are not drawn.
-/

namespace Funge93.Viewer

/-- The colours of the window, by what they are for. -/
inductive Colour where
  | background
  | text
  /-- For text of less weight. -/
  | dim
  | pointer
  /-- For the outline of the cell that was just written. -/
  | written
  | prompt
deriving DecidableEq

inductive Style where
  | filled
  | outlined
deriving DecidableEq

structure Mark where
  style : Style
  origin : Layout.Point
  width : Nat
  height : Nat
  colour : Colour
deriving DecidableEq

inductive Item where
  | text (content : String) (size : Nat) (origin : Layout.Point) (colour : Colour)
  | marks (marks : List Mark)
deriving DecidableEq

structure Frame where
  background : Colour
  items : List Item
deriving DecidableEq

namespace Frame

def line (row : Nat) (content : String) (colour : Colour) : Item :=
  .text content Layout.fontSize (Layout.rowOrigin row) colour

def lines : (row : Nat) → List String → Colour → List Item
  | _, [], _ => []
  | row, content :: rest, colour => line row content colour :: lines (row + 1) rest colour

def cellMark (style : Style) (colour : Colour) (p : Place) : Mark where
  style := style
  origin := Layout.cellOrigin p
  width := Layout.cellWidth
  height := Layout.cellHeight
  colour := colour

/-- The marks of a session: the cell of the pointer, and the cell just written. -/
def marks (s : Session) : List Mark :=
  cellMark .filled .pointer s.machine.place
    :: (s.lastWrite.map (cellMark .outlined .written)).toList

/-- How a character is drawn in its cell: a control character as a middle dot. -/
def glyph (c : Char) : Char :=
  if Text.isControl c then '\u00b7' else c

def glyphColour (m : Machine) (p : Place) : Colour :=
  if p = m.place then .background else .text

/-- The glyph at a place, unless there is a space. -/
def cellItem? (m : Machine) (p : Place) : Option Item :=
  let c := m.grid.get p
  if c = ' ' then none
  else
    let content := String.singleton (glyph c)
    some (.text content Layout.fontSize (Layout.cellOrigin p) (glyphColour m p))

def cells (m : Machine) : List Item :=
  Place.all.filterMap (cellItem? m)

def logLines (s : Session) : List String :=
  s.log.tail Layout.logRows

/-- The frame for a session with a prompt in its colour. -/
def of (s : Session) (prompt : String × Colour) : Frame where
  background := .background
  items :=
    line Layout.headerRow s.header .text
      :: .marks (marks s)
      :: (cells s.machine
        ++ line Layout.statusRow s.statusLine .text
        :: (lines Layout.logRow (logLines s) .dim
          ++ [line Layout.promptRow prompt.1 prompt.2]))

end Frame

end Funge93.Viewer
