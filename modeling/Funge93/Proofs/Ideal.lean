import Funge93.Proofs.Arithmetic
import Funge93.Proofs.Calls
import Mathlib.Data.Stream.Init

/-!
# The ideal machine

The machine as one would describe it to a reader with unlimited paper. Its plane
reaches over all pairs of integers and repeats itself after 80 columns and after
25 rows. Its pointer walks that plane and is never brought back. Its stack has no
bottom: below everything that was pushed there are zeros without end, so taking a
value cannot fail. Numbers are added, multiplied and divided in the integers, and
the result is cut down to a word when it is pushed.

Nothing here wraps, nothing is ever empty, and what each character does is one
line of a table. That is what makes it worth comparing with.
-/

namespace Funge93

/-- A character for each pair of integers, the same again after 80 columns and
after 25 rows. -/
structure Plane where
  char : Int → Int → Char
  period : ∀ x y i j, char (x + 80 * i) (y + 25 * j) = char x y

namespace Plane

theorem wrap_add_mul (x y i j : Int) :
    Place.wrap (x + 80 * i) (y + 25 * j) = Place.wrap x y := by
  simp only [Place.wrap, Int.add_mul_emod_self_left]

/-- The plane that a grid is one period of. -/
def ofGrid (g : Grid) : Plane where
  char x y := g.get (Place.wrap x y)
  period x y i j := by rw [wrap_add_mul]

/-- The plane with a character stored at a point, and so at all points that are
whole periods away from it. -/
def store (p : Plane) (x y : Int) (c : Char) : Plane where
  char u v := if (80 : Int) ∣ u - x ∧ (25 : Int) ∣ v - y then c else p.char u v
  period u v i j := by
    have hx : (80 : Int) ∣ u + 80 * i - x ↔ (80 : Int) ∣ u - x := by omega
    have hy : (25 : Int) ∣ v + 25 * j - y ↔ (25 : Int) ∣ v - y := by omega
    simp only [hx, hy, p.period]

end Plane

structure Ideal where
  plane : Plane
  /-- The column of the pointer, however far it has walked. -/
  x : Int
  y : Int
  heading : Heading
  /-- The values from the top down, without end. -/
  stack : Stream' Word
  stringMode : Bool
  output : String
  steps : Nat
  status : Status
  interruptRequested : Bool
  source : Random.Source

namespace Ideal

def start (grid : Grid) (source : Random.Source) : Ideal where
  plane := Plane.ofGrid grid
  x := 0
  y := 0
  heading := .east
  stack := Stream'.const 0
  stringMode := false
  output := ""
  steps := 0
  status := .running
  interruptRequested := false
  source := source

def cell (s : Ideal) : Char :=
  s.plane.char s.x s.y

def pop (s : Ideal) : Word × Ideal :=
  (s.stack.head, { s with stack := s.stack.tail })

def push (s : Ideal) (w : Word) : Ideal :=
  { s with stack := Stream'.cons w s.stack }

def move (s : Ideal) : Ideal :=
  { s with x := s.x + s.heading.dx, y := s.y + s.heading.dy }

def pushing (s : Ideal) (w : Word) : Event × Ideal :=
  (.pushed w, s.push w)

def facing (s : Ideal) (h : Heading) : Event × Ideal :=
  (.turned h, { s with heading := h })

def facingRandomly (s : Ideal) : Event × Ideal :=
  let draw := s.source.draw
  { s with
    source := s.source.rest
    interruptRequested := s.interruptRequested || draw.interrupts }.facing
      draw.heading

/-- Takes `a` and then `b`, and pushes the exact result for them as a word. -/
def combining (s : Ideal) (op : BinaryOp) : Event × Ideal :=
  let (a, s) := s.pop
  let (b, s) := s.pop
  s.pushing (Int64.ofInt (op.exact b.toInt a.toInt))

/-- What the characters do that are carried out in one go. -/
def act (s : Ideal) : Char → Event × Ideal
  | '>' => s.facing .east
  | '<' => s.facing .west
  | '^' => s.facing .north
  | 'v' => s.facing .south
  | '?' => s.facingRandomly
  | '_' =>
    let (a, s) := s.pop
    s.facing (if a = 0 then .east else .west)
  | '|' =>
    let (a, s) := s.pop
    s.facing (if a = 0 then .south else .north)
  | '\x22' => (.stringMode true, { s with stringMode := true })
  | '+' => s.combining .add
  | '-' => s.combining .sub
  | '*' => s.combining .mul
  | '/' => s.combining .div
  | '%' => s.combining .mod
  | '\x60' => s.combining .greater
  | '!' =>
    let (a, s) := s.pop
    s.pushing (if a = 0 then 1 else 0)
  | ':' => s.pushing s.stack.head
  | '\\' =>
    let (a, s) := s.pop
    let (b, s) := s.pop
    (s.push a).pushing b
  | '$' =>
    let (a, s) := s.pop
    (.dropped a, s)
  | '.' =>
    let (a, s) := s.pop
    (.printedInteger a, s)
  | ',' =>
    let (a, s) := s.pop
    (.printedCharacter a.toChar, { s with output := s.output.push a.toChar })
  | 'g' =>
    let (a, s) := s.pop
    let (b, s) := s.pop
    s.pushing (Word.ofChar (s.plane.char a.toInt b.toInt))
  | 'p' =>
    let (a, s) := s.pop
    let (b, s) := s.pop
    let (v, s) := s.pop
    (.stored (Place.wrap a.toInt b.toInt) v.toByteChar,
      { s with plane := s.plane.store a.toInt b.toInt v.toByteChar })
  | '#' => (.bridged, s.move)
  | c =>
    if '0' ≤ c ∧ c ≤ '9' then s.pushing (Int64.ofInt (c.toNat - '0'.toNat))
    else (.idle, s)

def quoting (s : Ideal) (c : Char) : Event × Ideal :=
  if c = '\x22' then (.stringMode false, { s with stringMode := false })
  else s.pushing (Word.ofChar c)

/-- Ends a completed instruction: the pointer moves on and the instruction is
counted. -/
def finish (s : Ideal) : Ideal :=
  { s.move with steps := s.steps + 1 }

def complete (done : Event × Ideal) : Outcome × Ideal :=
  (.did done.1, done.2.finish)

/-- What a character does outside a string. -/
def execute (s : Ideal) : Char → Outcome × Ideal
  | '&' => (.awaits .integer, { s with status := .awaiting .integer })
  | '~' => (.awaits .character, { s with status := .awaiting .character })
  | '@' => (.halted, { s with status := .halted })
  | c => complete (s.act c)

/-- Attempts an instruction. A run that is over stays over; a request to stop
ends any other; a run that waits goes on waiting. -/
def step (s : Ideal) : Outcome × Ideal :=
  match s.status with
  | .halted => (.halted, s)
  | .interrupted => (.interrupted, s)
  | .awaiting input =>
    if s.interruptRequested then (.interrupted, { s with status := .interrupted })
    else (.awaits input, s)
  | .running =>
    if s.interruptRequested then (.interrupted, { s with status := .interrupted })
    else if s.stringMode then complete (s.quoting s.cell)
    else s.execute s.cell

/-- Answers a request with a line: its value is pushed, and the instruction that
asked is completed. -/
def resume (s : Ideal) (line : String) : Answer × Ideal :=
  match s.status with
  | .awaiting input =>
    let value := input.read line
    (.came (.did (.pushed value)),
      ({ s with status := .running }.push value).finish)
  | status => (.refused ⟨status⟩, s)

def call (s : Ideal) : Call → Answer × Ideal
  | .step => let r := s.step; (.came r.1, r.2)
  | .resume line => s.resume line
  | .interrupt => (.noted, { s with interruptRequested := true })

def perform (s : Ideal) (calls : List Call) : List Answer × Ideal :=
  Funge93.perform call s calls

end Ideal

end Funge93
