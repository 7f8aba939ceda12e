/-!
# The command line

The command line names one program and sets options in any order. An option that
takes a number gets it behind an equals sign or as the next argument. Two dashes
end the options: what comes behind them names the program, whatever it looks like.

The arguments are read from left to right and the first fault decides. An
argument is only judged when the next one begins, though, for until then its value
may still be missing. So a fault in how an argument looks comes before a fault in
the value of the argument in front of it. Faults of the whole, a missing program
or a limit on steps without the headless option, come last.
-/

namespace Funge93.CommandLine

structure Options where
  program : String
  /-- The time between two instructions in the window, in milliseconds. -/
  delay : Nat
  seed : Option Nat
  headless : Bool
  /-- The number of completed instructions after which a headless run is stopped. -/
  maxSteps : Option Nat
deriving DecidableEq

inductive Refusal where
  | missingArgument
  /-- An argument that nothing is known about, or one program too many. -/
  | unknownArgument
  /-- The value of an option is no number of 64 bits. -/
  | notNumber
  /-- The value of an option is missing, or the path of the program is empty. -/
  | missingValue
  | repeated
  | unexpectedValue
  | help
deriving DecidableEq

/-- The exit status for a refusal. Asking for help is no mistake. -/
def Refusal.exitStatus : Refusal → Nat
  | help => 0
  | _ => 2

/-- The time between two instructions unless one is given, in milliseconds. -/
def defaultDelay : Nat := 30

inductive Setting where
  | delay
  | seed
  | maxSteps
deriving DecidableEq

namespace Setting

def name : Setting → String
  | delay => "delay-ms"
  | seed => "seed"
  | maxSteps => "max-steps"

def ofName? (name : String) : Option Setting :=
  [delay, seed, maxSteps].find? (fun s => s.name == name)

end Setting

/-- The value of a number of 64 bits: digits with no more than one plus sign in
front. -/
def number? (text : String) : Option Nat :=
  let digits := match text.toList with
    | '+' :: rest => rest
    | text => text
  let value := Nat.ofDigitChars 10 digits 0
  if digits.isEmpty || !digits.all Char.isDigit || 18446744073709551616 ≤ value then none
  else some value

inductive Shape where
  | endOfOptions
  /-- Two dashes, a name and perhaps an equals sign with a value. -/
  | long (name : String) (value : Option String)
  /-- A dash and a letter, perhaps with more behind it. -/
  | short (letter : Char)
  /-- Anything else, a single dash included. -/
  | plain
deriving DecidableEq

namespace Shape

def ofLong (text : List Char) : Shape :=
  let name := String.ofList (text.takeWhile (· != '='))
  match text.dropWhile (· != '=') with
  | [] => long name none
  | _ :: value => long name (some (String.ofList value))

def of (arg : String) : Shape :=
  match arg.toList with
  | ['-', '-'] => endOfOptions
  | '-' :: '-' :: text => ofLong text
  | '-' :: letter :: _ => short letter
  | _ => plain

end Shape

inductive Pending where
  | program (path : String)
  | setting (setting : Setting) (value : Option String)
deriving DecidableEq

structure Reading where
  program : Option String
  delay : Option Nat
  seed : Option Nat
  maxSteps : Option Nat
  headless : Bool
  pending : Option Pending
deriving DecidableEq

namespace Reading

def start : Reading where
  program := none
  delay := none
  seed := none
  maxSteps := none
  headless := false
  pending := none

def get (r : Reading) : Setting → Option Nat
  | .delay => r.delay
  | .seed => r.seed
  | .maxSteps => r.maxSteps

def set (r : Reading) (s : Setting) (n : Nat) : Reading :=
  match s with
  | .delay => { r with delay := some n }
  | .seed => { r with seed := some n }
  | .maxSteps => { r with maxSteps := some n }

def assign (r : Reading) (s : Setting) (value : String) : Except Refusal Reading :=
  if (r.get s).isSome then .error .repeated
  else
    match number? value with
    | none => .error .notNumber
    | some n => .ok (r.set s n)

def settle (r : Reading) : Except Refusal Reading :=
  match r.pending with
  | none => .ok r
  | some (.program path) =>
    if path.isEmpty then .error .missingValue
    else .ok { r with program := some path, pending := none }
  | some (.setting _ none) => .error .missingValue
  | some (.setting s (some value)) => { r with pending := none }.assign s value

def hasProgram (r : Reading) : Bool :=
  match r.pending with
  | some (.program _) => true
  | _ => r.program.isSome

def readProgram (r : Reading) (arg : String) : Except Refusal Reading := do
  if r.hasProgram then .error .unknownArgument
  else return { ← r.settle with pending := some (.program arg) }

def readHeadless (r : Reading) : Except Refusal Reading := do
  let r ← r.settle
  if r.headless then .error .repeated else return { r with headless := true }

/-- Reads a request for help, which is only granted if nothing before it is wrong. -/
def readHelp (r : Reading) : Except Refusal Reading := do
  let _ ← r.settle
  .error .help

def readLong (r : Reading) (name : String) (value : Option String) :
    Except Refusal Reading :=
  match Setting.ofName? name, value with
  | some s, some value => do (← r.settle).assign s value
  | some s, none => do return { ← r.settle with pending := some (.setting s none) }
  | none, value =>
    if name != "headless" && name != "help" then .error .unknownArgument
    else if value.isSome then .error .unexpectedValue
    else if name == "help" then r.readHelp
    else r.readHeadless

def readShort (r : Reading) (letter : Char) : Except Refusal Reading :=
  if letter = 'h' then r.readHelp else .error .unknownArgument

/-- Reads an argument without dashes in front: the value that an option still lacks,
or the program. -/
def readPlain (r : Reading) (arg : String) : Except Refusal Reading :=
  match r.pending with
  | some (.setting s none) => .ok { r with pending := some (.setting s (some arg)) }
  | _ => r.readProgram arg

/-- Reads arguments. The flag tells whether the options have ended. -/
def readAll : (ended : Bool) → Reading → List String → Except Refusal Reading
  | _, r, [] => .ok r
  | true, r, arg :: rest => do readAll true (← r.readProgram arg) rest
  | false, r, arg :: rest =>
    match Shape.of arg with
    | .endOfOptions => readAll true r rest
    | .long name value => do readAll false (← r.readLong name value) rest
    | .short letter => do readAll false (← r.readShort letter) rest
    | .plain => do readAll false (← r.readPlain arg) rest

def finish (r : Reading) : Except Refusal Options :=
  match r.program with
  | none => .error .missingArgument
  | some program =>
    if r.maxSteps.isSome && !r.headless then .error .missingArgument
    else
      .ok
        { program := program
          delay := r.delay.getD defaultDelay
          seed := r.seed
          headless := r.headless
          maxSteps := r.maxSteps }

end Reading

def parse (args : List String) : Except Refusal Options := do
  (← (← Reading.readAll false Reading.start args).settle).finish

/-- Whether a path names the standard input: its only component is a single dash.
Slashes and dots behind the dash add no component. -/
def namesStandardInput (path : String) : Bool :=
  match path.toList.splitOn '/' with
  | first :: rest => first == ['-'] && rest.all (fun part => part == [] || part == ['.'])
  | [] => false

end Funge93.CommandLine
