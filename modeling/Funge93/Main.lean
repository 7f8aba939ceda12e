import Funge93.Launch

/-!
# The program

The process around a run: it reads its arguments, the program's text and the lines
of input, and writes what the run prints. What to do next is decided elsewhere; here
it is only done. Messages about failures go to the standard error.

There is no window to open here, so a run that is not headless ends at once.
-/

namespace Funge93.Main

def usage : String :=
  "Step through a Befunge-93 program\n\n" ++
  "Usage: befunge [OPTIONS] <PROGRAM>\n\n" ++
  "Arguments:\n" ++
  "  <PROGRAM>  Program file, or - to read it from stdin\n\n" ++
  "Options:\n" ++
  "      --delay-ms <DELAY_MS>    Delay between steps in the window, in milliseconds\n" ++
  "      --seed <SEED>            Seed for the ? instruction (random when omitted)\n" ++
  "      --headless               Run in the terminal without opening a window\n" ++
  "      --max-steps <MAX_STEPS>  Interrupt a headless run after this many steps\n" ++
  "  -h, --help                   Print help\n"

def refusalMessage : CommandLine.Refusal → String
  | .missingArgument => "a required argument was not provided"
  | .unknownArgument => "unexpected argument"
  | .notNumber => "invalid value: not a number of 64 bits"
  | .missingValue => "a value is required but none was supplied"
  | .repeated => "an option cannot be used multiple times"
  | .unexpectedValue => "unexpected value for an option that takes none"
  | .help => "help"

def complain (message : String) : IO Unit := do
  (← IO.getStderr).putStrLn ("error: " ++ message)

/-- Why the system refused to read, as far as its answer can be told apart. -/
def ioFailure : IO.Error → IoFailure
  | .noFileOrDirectory _ _ _ => .noSuchFile
  | .inappropriateType _ code _ => if code = 21 then .isDirectory else .notDirectory
  | e => .other (toString e)

/-- Asks the system for a key. Each of its words takes four bytes, the lowest first. -/
def makeKey : IO Random.ChaCha.Key := do
  let bytes ← IO.getRandomBytes 32
  return Vector.ofFn fun i =>
    ((bytes.toList.drop (4 * i.val)).take 4).foldr (fun b n => n * 256 + b.toUInt32) 0

partial def readRest (stream : IO.FS.Stream) (read : Array UInt8) : IO (List UInt8) := do
  let chunk ← stream.read 65536
  if chunk.isEmpty then return read.toList else readRest stream (read ++ chunk.toList)

/-- The bytes of a stream up to its next line feed, or all that is left. -/
partial def readLine (stream : IO.FS.Stream) (read : Array UInt8) : IO (List UInt8) := do
  let chunk ← stream.read 1
  let read := read ++ chunk.toList
  if chunk.isEmpty || chunk.toList == [10] then return read.toList else readLine stream read

def readProgram (path : String) : IO (Except IoFailure (List UInt8)) := do
  try
    if CommandLine.namesStandardInput path then
      return .ok (← readRest (← IO.getStdin) #[])
    else return .ok (← IO.FS.readBinFile path).toList
  catch e => return .error (ioFailure e)

/-- Where the next line of input comes from: the standard input, the terminal if the
standard input has brought the program, or nowhere. -/
def inputLine (path : String) : IO (IO (List UInt8)) := do
  if CommandLine.namesStandardInput path then
    try
      let terminal ← IO.FS.Handle.mk "/dev/tty" .read
      return readLine (IO.FS.Stream.ofHandle terminal) #[]
    catch _ => return pure []
  else return readLine (← IO.getStdin) #[]

partial def run (limit : Option Nat) (nextLine : IO (List UInt8)) (out : IO.FS.Stream)
    (s : Session) : IO (Except Failure Outcome) := do
  let (outcome, s) := Headless.attempt limit s
  match Headless.Reaction.ofOutcome outcome with
  | .proceed => run limit nextLine out s
  | .print text =>
    out.putStr text
    run limit nextLine out s
  | .read =>
    out.flush
    match Headless.supplyLine s (← nextLine) with
    | (.error e, _) => return .error e
    | (.ok _, s) => run limit nextLine out s
  | .stop =>
    out.flush
    return .ok outcome

/-- Runs a session to its end, failures of the streams included. -/
def runSafely (options : CommandLine.Options) (s : Session) : IO (Except Failure Outcome) := do
  try run options.maxSteps (← inputLine options.program) (← IO.getStdout) s
  catch e => return .error (.io (ioFailure e))

/-- Carries out what the arguments ask for and answers with the exit status. -/
def carryOut (options : CommandLine.Options) : IO Nat := do
  match Launch.decodeProgram options.program (← readProgram options.program) with
  | .error e =>
    complain e.message
    return Launch.failed
  | .ok text =>
    if options.headless then
      let key ← makeKey
      let result ← runSafely options (Launch.session options text fun _ => key)
      match result with
      | .error e => complain e.message
      | .ok _ => pure ()
      return Launch.exitStatus result
    else
      complain "no window can be opened"
      return Launch.failed

/-- Carries out the command line and answers with the exit status. -/
def start (args : List String) : IO Nat := do
  match CommandLine.parse args with
  | .error .help =>
    IO.print usage
    return CommandLine.Refusal.help.exitStatus
  | .error refusal =>
    complain (refusalMessage refusal)
    return refusal.exitStatus
  | .ok options => carryOut options

end Funge93.Main

/-- The program: its arguments in, its exit status out. -/
def main (args : List String) : IO UInt32 := do
  return UInt32.ofNat (← Funge93.Main.start args)
