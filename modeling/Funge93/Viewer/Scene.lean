import Funge93.Viewer.Frame

/-!
# The scene

The scene is a run at a watchable pace. Time that goes by is saved up, and each
instruction costs the delay between two of them. While the run is paused, waits
for input or is over, no time is saved. A single update pays for a limited number
of instructions; what it leaves unpaid is forgiven, so a slow window never falls
further and further behind.

Keys are commands or edit the line that is being typed, never both. The line is
typed only while the program waits, and is handed over and emptied by the return
key. A request to stop takes effect at the next attempt to execute an instruction;
as nothing else would make one in a run that is paused or waits, the request makes
it itself.
-/

namespace Funge93.Viewer

structure Setup where
  program : Grid
  /-- The seed of the random turns. Without one each run is given a key of its own. -/
  seed : Option UInt64
  /-- The time between two instructions, in microseconds. -/
  delay : Nat

structure Scene where
  setup : Setup
  session : Session
  /-- The time saved up, in microseconds. -/
  elapsed : Nat
  paused : Bool
  typed : List Char

inductive Key where
  | escape
  | enter
  | numpadEnter
  | backspace
  | space
  | c
  | n
  | r
  | other
deriving DecidableEq

namespace Scene

def maxStepsPerUpdate : Nat := 10000

def start (setup : Setup) (entropy : Random.Entropy) : Scene where
  setup := setup
  session := Session.start setup.program (.drawn setup.seed entropy)
  elapsed := 0
  paused := false
  typed := []

def awaiting (s : Scene) : Bool :=
  s.session.awaited?.isSome

def isFinished (s : Scene) : Bool :=
  s.session.finished

def stepOnce (s : Scene) : Scene :=
  { s with session := s.session.advance.2 }

/-- Spends the time saved up, on no more than a number of attempts. An attempt that
does not complete an instruction ends the spending and loses the rest, and so does
the last attempt allowed. -/
def spend : (budget : Nat) → Scene → Scene
  | 0, s => { s with elapsed := 0 }
  | budget + 1, s =>
    if s.setup.delay ≤ s.elapsed then
      let (outcome, session) := s.session.advance
      match outcome with
      | .did _ =>
        spend budget { s with session := session, elapsed := s.elapsed - s.setup.delay }
      | _ => { s with session := session, elapsed := 0 }
    else s

def update (s : Scene) (time : Nat) : Scene :=
  if s.paused || s.awaiting || s.isFinished then { s with elapsed := 0 }
  else { s with elapsed := s.elapsed + time }.spend maxStepsPerUpdate

/-- Asks that the run be stopped, and throws the typed line away. -/
def interrupt (s : Scene) : Scene :=
  let asked := { s with session := s.session.interrupt }
  if s.paused || s.awaiting then { asked.stepOnce with typed := [] }
  else { asked with typed := [] }

/-- Hands the typed line over. Nothing is kept of a scene that this fails in, since the
window closes on it. -/
def submit (s : Scene) : Except Machine.NotAwaiting Scene :=
  match s.session.supply (String.ofList s.typed) with
  | (.error e, _) => .error e
  | (.ok _, session) => .ok { s with session := session, typed := [] }

/-- Whether a key press asks that the window be closed. -/
def quits (s : Scene) (key : Key) : Bool :=
  key == .escape && s.isFinished

def keyDown (s : Scene) (key : Key) (control : Bool) : Except Machine.NotAwaiting Scene :=
  match key with
  | .escape => .ok (if s.isFinished then s else s.interrupt)
  | .c => .ok (if control && !s.isFinished then s.interrupt else s)
  | .enter => if s.awaiting then s.submit else .ok s
  | .numpadEnter => if s.awaiting then s.submit else .ok s
  | .backspace => .ok (if s.awaiting then { s with typed := s.typed.dropLast } else s)
  | .space => .ok (if s.awaiting then s else { s with paused := !s.paused })
  | .n => .ok (if s.paused && !s.awaiting then s.stepOnce else s)
  | .r => .ok s
  | .other => .ok s

def charTyped (s : Scene) (c : Char) : Scene :=
  if s.awaiting && !Text.isControl c then { s with typed := s.typed ++ [c] } else s

/-- The prompt: what can be done, or the line that is being typed. -/
def prompt (s : Scene) : String × Colour :=
  match s.session.awaited? with
  | some input => (input.prompt ++ String.ofList s.typed ++ "_", .prompt)
  | none =>
    if s.isFinished then ("Finished. R: restart  Esc: quit", .dim)
    else if s.paused then ("Paused. Space: resume  N: step  Esc: interrupt", .dim)
    else ("Space: pause  Esc/Ctrl+C: interrupt", .dim)

def frame (s : Scene) : Frame :=
  Frame.of s.session s.prompt

end Scene

end Funge93.Viewer
