import Funge93.CommandLine
import Funge93.Headless.Drive
import Funge93.Viewer.Scene

/-!
# Launching a run

The command line decides how the process goes on: it ends at once, it runs a
program without a window, or it opens the window. A program comes from a file or
from the standard input. In the second case the standard input has been used up
when the run begins, and the lines that the program asks for have to come from
elsewhere.

The outside world enters as values: the contents of the files and of the standard
input, and the keys that are used when no seed is given.
-/

namespace Funge93

structure Surroundings where
  readFile : String → Except IoFailure (List UInt8)
  standardInput : List UInt8
  /-- The lines that are typed when the standard input is used up by the program. -/
  terminal : List UInt8
  /-- The keys that are used when no seed is given. -/
  entropy : Random.Entropy

/-- How a process goes on once its arguments are read. -/
inductive Launch where
  | exit (status : Nat)
  | headless (drive : Headless.Drive)
  | window (setup : Viewer.Setup)

namespace Launch

def failed : Nat := 1

/-- The program's text, from bytes that may not have been read. -/
def decodeProgram (path : String) (bytes : Except IoFailure (List UInt8)) :
    Except Failure String :=
  match bytes with
  | .error cause => .error (.program path cause)
  | .ok bytes =>
    match Text.ofBytes? bytes with
    | none => .error (.program path .notText)
    | some text => .ok text

def readProgram (world : Surroundings) (path : String) : Except Failure String :=
  decodeProgram path
    (if CommandLine.namesStandardInput path then .ok world.standardInput
    else world.readFile path)

/-- The bytes that the program's requests for input are answered from. -/
def inputOf (world : Surroundings) (path : String) : List UInt8 :=
  if CommandLine.namesStandardInput path then world.terminal else world.standardInput

/-- The seed of the random turns, if one is given. -/
def seedOf (options : CommandLine.Options) : Option UInt64 :=
  options.seed.map UInt64.ofNat

def session (options : CommandLine.Options) (text : String) (entropy : Random.Entropy) :
    Session :=
  Session.start (Grid.load text) (.drawn (seedOf options) entropy)

def ofText (world : Surroundings) (options : CommandLine.Options) (text : String) : Launch :=
  if options.headless then
    .headless
      (.start (session options text world.entropy) (inputOf world options.program) none
        options.maxSteps)
  else .window ⟨Grid.load text, seedOf options, 1000 * options.delay⟩

def ofArgs (world : Surroundings) (args : List String) : Launch :=
  match CommandLine.parse args with
  | .error refusal => .exit refusal.exitStatus
  | .ok options =>
    match readProgram world options.program with
    | .error _ => .exit failed
    | .ok text => ofText world options text

def exitStatus : Except Failure Outcome → Nat
  | .ok _ => 0
  | .error _ => failed

end Launch

end Funge93
