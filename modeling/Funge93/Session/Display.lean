import Funge93.Session.Basic
import Funge93.Text.Control

/-!
# What is shown of a session

Two lines of text sum a session up. The header counts the completed instructions.
The status line tells where the pointer stands, which way it faces and what it
stands on, then shows the end of what has been printed, and last whether a string
is being read. It is cut to the width of the program space.
-/

namespace Funge93.Session

def outputTail : Nat := 40

def header (s : Session) : String :=
  "--- Step " ++ Text.decimal s.machine.steps ++ " ---"

/-- A printed character inside a single line: a control character is a space. -/
def flattened (c : Char) : Char :=
  if Text.isControl c then ' ' else c

def whereabouts (m : Machine) : String :=
  "IP:(" ++ Text.padLeft 2 (Text.decimal m.place.x.val) ++ ","
    ++ Text.padLeft 2 (Text.decimal m.place.y.val) ++ ") Dir:" ++ m.heading.text
    ++ " Cmd:" ++ Text.quoted m.cell

def recentOutput (m : Machine) : String :=
  if m.output.isEmpty then ""
  else " Output: " ++ String.ofList ((lastOf outputTail m.output.toList).map flattened)

def modeNote (m : Machine) : String :=
  if m.stringMode then " (string mode)" else ""

/-- The status line, cut to the width of the program space. -/
def statusLine (s : Session) : String :=
  let line := whereabouts s.machine ++ recentOutput s.machine ++ modeNote s.machine
  String.ofList (line.toList.take Torus.width)

end Funge93.Session
