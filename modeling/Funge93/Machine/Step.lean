import Funge93.Machine.Basic
import Funge93.Random.Source

/-!
# Execution

An attempt to execute an instruction looks at the state of the run first. A run
that is over stays over. A request to stop ends a run that is not. A run that
waits for input goes on waiting. Only then is the character under the pointer
looked at: inside a string it is pushed, or ends the string; outside it is
executed.

Each completed instruction moves the pointer on exactly once and is counted
exactly once. An instruction that asks for input is completed by the line that
answers it, and the instruction that ends the program is never completed.
-/

namespace Funge93

namespace Machine

def pushing (m : Machine) (w : Word) : Event × Machine :=
  (.pushed w, m.push w)

def turning (m : Machine) (h : Heading) : Event × Machine :=
  (.turned h, { m with heading := h })

/-- An instruction that stores a value, given the column, the row and the value. -/
def storing (m : Machine) (x y value : Word) : Event × Machine :=
  let place := Place.wrap x.toInt y.toInt
  let c := value.toByteChar
  (.stored place c, { m with grid := m.grid.set place c })

def printing (m : Machine) (c : Char) : Event × Machine :=
  (.printedCharacter c, { m with output := m.output.push c })

/-- A random turn. The answer may come with a request to stop. -/
def turningRandomly (m : Machine) (draw : Random.Draw) : Event × Machine :=
  { m with interruptRequested := m.interruptRequested || draw.interrupts }.turning draw.heading

def quoting (m : Machine) (c : Char) : Event × Machine :=
  if c = '\x22' then (.stringMode false, { m with stringMode := false })
  else m.pushing (Word.ofChar c)

end Machine

/-- What came of an attempt, and the run and the source after it. -/
structure Step where
  outcome : Outcome
  machine : Machine
  source : Random.Source

namespace Machine

def completing (source : Random.Source) (done : Event × Machine) : Step :=
  ⟨.did done.1, done.2.finish, source⟩

def execute (m : Machine) (source : Random.Source) : Instruction → Step
  | .go h => completing source (m.turning h)
  | .goRandom => completing source.rest (m.turningRandomly source.draw)
  | .branchHorizontal =>
    completing source (m.drop.turning (if m.stack.peek = 0 then .east else .west))
  | .branchVertical =>
    completing source (m.drop.turning (if m.stack.peek = 0 then .south else .north))
  | .quote => completing source (.stringMode true, { m with stringMode := true })
  | .digit d => completing source (m.pushing (Int64.ofInt d.val))
  | .binary op =>
    completing source (m.drop.drop.pushing (op.apply m.stack.drop.peek m.stack.peek))
  | .not => completing source (m.drop.pushing (Word.truth (m.stack.peek == 0)))
  | .duplicate => completing source (m.pushing m.stack.peek)
  | .swap =>
    completing source ((m.drop.drop.push m.stack.peek).pushing m.stack.drop.peek)
  | .drop => completing source (.dropped m.stack.peek, m.drop)
  | .printInteger => completing source (.printedInteger m.stack.peek, m.drop)
  | .printCharacter => completing source (m.drop.printing m.stack.peek.toChar)
  | .ask input => ⟨.awaits input, { m with status := .awaiting input }, source⟩
  | .get =>
    let place := Place.wrap m.stack.peek.toInt m.stack.drop.peek.toInt
    completing source (m.drop.drop.pushing (Word.ofChar (m.grid.get place)))
  | .put =>
    completing source
      (m.drop.drop.drop.storing m.stack.peek m.stack.drop.peek m.stack.drop.drop.peek)
  | .bridge => completing source (.bridged, m.forward)
  | .halt => ⟨.halted, { m with status := .halted }, source⟩
  | .nop => completing source (.idle, m)

/-- Attempts to execute the instruction under the pointer. -/
def step (m : Machine) (source : Random.Source) : Step :=
  match m.status with
  | .halted => ⟨.halted, m, source⟩
  | .interrupted => ⟨.interrupted, m, source⟩
  | .running =>
    if m.interruptRequested then ⟨.interrupted, { m with status := .interrupted }, source⟩
    else if m.stringMode then completing source (m.quoting m.cell)
    else m.execute source (Instruction.ofChar m.cell)
  | .awaiting input =>
    if m.interruptRequested then ⟨.interrupted, { m with status := .interrupted }, source⟩
    else ⟨.awaits input, m, source⟩

/-- A line was offered to a run that does not wait for one. -/
structure NotAwaiting where
  status : Status
deriving DecidableEq

def NotAwaiting.message (e : NotAwaiting) : String :=
  "no input is pending (engine is " ++ e.status.text ++ ")"

/-- Offers a line to a run. If the run waits for input, the line completes the
instruction that asked; a request to stop does not keep it from being taken. What comes of
it, and the run after it. -/
def resume (m : Machine) (line : String) : Except NotAwaiting Outcome × Machine :=
  match m.status with
  | .awaiting input =>
    let value := input.read line
    (.ok (.did (.pushed value)), ({ m with status := .running }.push value).finish)
  | status => (.error ⟨status⟩, m)

end Machine

/-- Goes on after an attempt, by as many further attempts as allowed, until one
does not complete an instruction. -/
def Step.proceed : Nat → Step → Step
  | 0, r => r
  | n + 1, r =>
    match r.outcome with
    | .did _ => proceed n (r.machine.step r.source)
    | _ => r

end Funge93
