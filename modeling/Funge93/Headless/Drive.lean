import Funge93.Failure
import Funge93.Headless.InputLine
import Funge93.Headless.Sink
import Funge93.Session.Basic

/-!
# Runs without a window

Without a window a session is driven to its end as fast as it goes. Characters
are printed as they are and numbers with a space behind them. A request for input
takes the next line of the input. The run ends when the program does, when
reading or writing fails, or when it reaches its limit of completed instructions:
the limit asks that the run be stopped, and the attempt that follows stops it.

`Reaction` says what an outcome calls for. It is all that a front end without a
window has to obey, whether its streams are given as bytes, as in `Drive`, or
belong to a process.
-/

namespace Funge93.Headless

/-- What the outcome of an attempt calls for. -/
inductive Reaction where
  | proceed
  | print (text : String)
  | read
  | stop
deriving DecidableEq

namespace Reaction

def ofOutcome : Outcome → Reaction
  | .did (.printedCharacter c) => .print (String.singleton c)
  | .did (.printedInteger n) => .print (Text.decimal n.toInt ++ " ")
  | .did _ => .proceed
  | .awaits _ => .read
  | .halted => .stop
  | .interrupted => .stop

end Reaction

/-- Whether a session that is not over has reached its limit of completed
instructions. -/
def atLimit (limit : Option Nat) (s : Session) : Bool :=
  match limit with
  | none => false
  | some n => decide (n ≤ s.machine.steps) && !s.finished

/-- Attempts to execute one instruction, with the request to stop made first if
the limit is reached. -/
def attempt (limit : Option Nat) (s : Session) : Outcome × Session :=
  if atLimit limit s then s.interrupt.advance else s.advance

/-- Supplies the next line of the input, unless it is not text. -/
def supplyLine (s : Session) (input : List UInt8) : Except Failure Outcome × Session :=
  match line? input with
  | none => (.error (.io .notText), s)
  | some line =>
    match s.supply line with
    | (.error e, s) => (.error (.input e), s)
    | (.ok outcome, s) => (.ok outcome, s)

structure Drive where
  session : Session
  input : List UInt8
  sink : Sink
  /-- The number of completed instructions after which the run is stopped. -/
  limit : Option Nat
  result : Option (Except Failure Outcome)

namespace Drive

def start (session : Session) (input : List UInt8) (capacity limit : Option Nat) : Drive where
  session := session
  input := input
  sink := Sink.empty capacity
  limit := limit
  result := none

/-- Prints a text, which ends the run if there is no room for it. -/
def print (d : Drive) (text : String) : Drive :=
  let bytes := Text.toBytes text
  { d with
    sink := d.sink.take bytes
    result := if d.sink.fits bytes then d.result else some (.error (.io .noRoom)) }

/-- Reads a line and supplies it, which ends the run if the line is not text. -/
def read (d : Drive) : Drive :=
  match supplyLine d.session d.input with
  | (.error e, session) =>
    { d with session := session, input := afterLine d.input, result := some (.error e) }
  | (.ok _, session) => { d with session := session, input := afterLine d.input }

def react (d : Drive) (outcome : Outcome) : Drive :=
  match Reaction.ofOutcome outcome with
  | .proceed => d
  | .print text => d.print text
  | .read => d.read
  | .stop => { d with result := some (.ok outcome) }

/-- One round of a run that has not ended: an attempt and what it calls for. -/
def turn (d : Drive) : Drive :=
  match d.result with
  | some _ => d
  | none =>
    let (outcome, session) := attempt d.limit d.session
    { d with session := session }.react outcome

/-- As many rounds as allowed, or as there are. -/
def turns : Nat → Drive → Drive
  | 0, d => d
  | n + 1, d =>
    match d.result with
    | some _ => d
    | none => turns n d.turn

end Drive

end Funge93.Headless
