import Funge93.Log
import Funge93.Machine.Step

/-!
# Sessions

A session is a run as somebody at a screen sees it: the machine, the source that
its random turns draw from, and the log of the numbers that were printed and the
lines that were read. It also remembers which place the latest instruction wrote
to, and whether the end of the run has been noted in the log, so that it is noted
only once however often somebody tries to go on.
-/

namespace Funge93

structure Session where
  machine : Machine
  source : Random.Source
  log : Log
  /-- The place that the latest attempt wrote to, if it wrote. -/
  lastWrite : Option Place
  finished : Bool

namespace Session

def logCapacity : Nat := 2000

def start (grid : Grid) (source : Random.Source) : Session where
  machine := Machine.start grid
  source := source
  log := Log.ofCapacity logCapacity
  lastWrite := none
  finished := false

def awaited? (s : Session) : Option Input :=
  s.machine.status.awaited?

def interrupt (s : Session) : Session :=
  { s with machine := s.machine.interrupt }

/-- The session with the end of the run noted, by a line that says how it came. -/
def noteEnd (s : Session) (line : String) : Session :=
  if s.finished then s else { s with log := s.log.push line, finished := true }

/-- The session with the outcome of an attempt noted. -/
def note (s : Session) : Outcome → Session
  | .did (.printedInteger n) =>
    { s with log := s.log.push (Event.printedInteger n).text, lastWrite := none }
  | .did (.stored place _) => { s with lastWrite := some place }
  | .did _ => { s with lastWrite := none }
  | .awaits _ => { s with lastWrite := none }
  | .halted => { s with lastWrite := none }.noteEnd "Halted."
  | .interrupted => { s with lastWrite := none }.noteEnd "Interrupted (Ctrl+C)."

def advance (s : Session) : Outcome × Session :=
  let r := s.machine.step s.source
  (r.outcome, { s with machine := r.machine, source := r.source }.note r.outcome)

/-- The session with the value noted that a line was read as. -/
def noteInput (s : Session) (input : Option Input) (outcome : Outcome) : Session :=
  match input, outcome with
  | some input, .did (.pushed value) =>
    let line := "Input(" ++ input.label ++ ") = " ++ Text.decimal value.toInt
    { s with log := s.log.push line }
  | _, _ => s

/-- Offers a line to a program. What comes of it, and the session after it. -/
def supply (s : Session) (line : String) : Except Machine.NotAwaiting Outcome × Session :=
  match s.machine.resume line with
  | (.error e, machine) => (.error e, { s with machine := machine })
  | (.ok outcome, machine) =>
    (.ok outcome, { s with machine := machine }.noteInput s.awaited? outcome)

end Session

end Funge93
