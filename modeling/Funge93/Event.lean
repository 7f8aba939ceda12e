import Funge93.Instruction
import Funge93.Text.Quoted
import Funge93.Torus

/-!
# Events and outcomes

A completed instruction is reported as one event, which says all that an
onlooker has to know to follow the run except for the values that were taken
from the stack. An attempt to execute an instruction has an outcome: it is
completed with an event, or the run waits for input, or it is over.
-/

namespace Funge93

/-- What a completed instruction did. -/
inductive Event where
  | turned (heading : Heading)
  | pushed (value : Word)
  /-- A value was taken and forgotten. -/
  | dropped (value : Word)
  | stored (place : Place) (value : Char)
  | printedInteger (value : Word)
  | printedCharacter (value : Char)
  | stringMode (on : Bool)
  /-- A cell was jumped over. -/
  | bridged
  | idle
deriving DecidableEq

namespace Event

def text : Event → String
  | turned heading => "Direction: " ++ heading.text
  | pushed value => "Push: " ++ Text.decimal value.toInt
  | dropped value => "Pop: " ++ Text.decimal value.toInt
  | stored place value =>
    "Put: (" ++ Text.decimal place.x.val ++ "," ++ Text.decimal place.y.val ++ ") <- "
      ++ Text.quoted value
  | printedInteger value => "Output(int): " ++ Text.decimal value.toInt
  | printedCharacter value => "Output(char): " ++ Text.quoted value
  | stringMode on => "String mode: " ++ if on then "on" else "off"
  | bridged => "Bridge"
  | idle => "Nop"

end Event

/-- What came of an attempt to execute an instruction. -/
inductive Outcome where
  | did (event : Event)
  /-- The instruction asks for input and is not completed before it gets some. -/
  | awaits (input : Input)
  /-- The program has ended itself. -/
  | halted
  /-- The run was stopped from outside. -/
  | interrupted
deriving DecidableEq

namespace Outcome

def isCompletion : Outcome → Bool
  | did _ => true
  | _ => false

def isFinal : Outcome → Bool
  | halted => true
  | interrupted => true
  | _ => false

end Outcome

end Funge93
