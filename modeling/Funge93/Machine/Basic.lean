import Funge93.Event
import Funge93.Grid
import Funge93.Stack

/-!
# The machine

A machine is one run of one program: the program space, the instruction pointer
with its heading, the stack, and what has been printed so far. It counts the
instructions that were completed. Its status says whether it can go on. It may
be waiting for input, and it may be over, either because the program ended itself
or because somebody outside stopped it.

A request to stop is a flag. It takes effect at the next attempt to execute an
instruction and not before, so whatever is being done is done to the end.
-/

namespace Funge93

inductive Status where
  | running
  | awaiting (input : Input)
  | halted
  | interrupted
deriving DecidableEq

namespace Status

/-- The status as error messages name it. -/
def text : Status → String
  | running => "Running"
  | awaiting .integer => "AwaitingInput(Integer)"
  | awaiting .character => "AwaitingInput(Character)"
  | halted => "Halted"
  | interrupted => "Interrupted"

def awaited? : Status → Option Input
  | awaiting input => some input
  | _ => none

end Status

/-- One run of one program. -/
structure Machine where
  grid : Grid
  place : Place
  heading : Heading
  stack : Stack
  /-- Whether the characters met are part of a string. -/
  stringMode : Bool
  /-- The characters printed one by one, in order. -/
  output : String
  steps : Nat
  status : Status
  interruptRequested : Bool
deriving DecidableEq

namespace Machine

def start (grid : Grid) : Machine where
  grid := grid
  place := Place.origin
  heading := .east
  stack := Stack.empty
  stringMode := false
  output := ""
  steps := 0
  status := .running
  interruptRequested := false

def cell (m : Machine) : Char :=
  m.grid.get m.place

def interrupt (m : Machine) : Machine :=
  { m with interruptRequested := true }

def push (m : Machine) (w : Word) : Machine :=
  { m with stack := m.stack.push w }

def drop (m : Machine) : Machine :=
  { m with stack := m.stack.drop }

/-- The machine with its pointer on the next place along its heading. -/
def forward (m : Machine) : Machine :=
  { m with place := m.place.next m.heading }

/-- The machine after an instruction: the pointer moves on and the instruction is
counted. -/
def finish (m : Machine) : Machine :=
  { m.forward with steps := m.steps + 1 }

end Machine

end Funge93
