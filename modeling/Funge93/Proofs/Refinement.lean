import Funge93.Proofs.Ideal

/-!
# The machine is the ideal machine, folded up

`Represents` says how a machine that fits into a computer stands for an ideal one:
its pointer is the ideal pointer modulo the two sizes of the torus, its grid is
one period of the plane, its stack is the ideal stack down to some depth with
nothing but zeros below, and all else is the same.

The relation is kept piece by piece. Each of the few things that instructions do,
such as taking a value or storing a character, keeps it, and an instruction is a
sequence of those. Only three of them have anything in them. A value taken from an
empty stack is the zero that the ideal stack has there. A place that is looked up
is found by wrapping on one side and by the period on the other. A character
stored at one place is a character stored at all the points that wrap to it.
-/

namespace Funge93

/-! ## The torus and the plane -/

namespace Place

@[simp] theorem wrap_x (x y : Int) : ((wrap x y).x.val : Int) = x % 80 :=
  Int.toNat_of_nonneg (Int.emod_nonneg x (by decide))

@[simp] theorem wrap_y (x y : Int) : ((wrap x y).y.val : Int) = y % 25 :=
  Int.toNat_of_nonneg (Int.emod_nonneg y (by decide))

/-- The points that name a place are those that lie whole periods away from it. -/
theorem eq_wrap_iff (p : Place) (x y : Int) :
    p = wrap x y ↔ (80 : Int) ∣ p.x.val - x ∧ (25 : Int) ∣ p.y.val - y := by
  have hx : p.x.val < 80 := p.x.isLt
  have hy : p.y.val < 25 := p.y.isLt
  constructor
  · intro h
    have hwx := wrap_x x y
    have hwy := wrap_y x y
    rw [← h] at hwx hwy
    omega
  · intro ⟨hdx, hdy⟩
    have hwx := wrap_x x y
    have hwy := wrap_y x y
    obtain ⟨px, py⟩ := p
    rw [Place.mk.injEq, Fin.ext_iff, Fin.ext_iff]
    simp only at hx hy hdx hdy ⊢
    omega

theorem wrap_self (p : Place) : wrap p.x.val p.y.val = p := by
  refine ((p.eq_wrap_iff _ _).mpr ?_).symm
  omega

/-- It makes no difference whether a point is brought back before it is moved. -/
theorem wrap_wrap_add (x y i j : Int) :
    wrap ((wrap x y).x.val + i) ((wrap x y).y.val + j) = wrap (x + i) (y + j) := by
  rw [wrap_x, wrap_y, wrap, wrap]
  simp only [Int.emod_add_emod]

theorem next_wrap (x y : Int) (h : Heading) :
    (wrap x y).next h = wrap (x + h.dx) (y + h.dy) :=
  wrap_wrap_add x y h.dx h.dy

end Place

theorem Plane.char_emod (p : Plane) (x y : Int) :
    p.char (x % 80) (y % 25) = p.char x y := by
  have h := p.period (x % 80) (y % 25) (x / 80) (y / 25)
  rw [Int.emod_add_mul_ediv, Int.emod_add_mul_ediv] at h
  exact h.symm

/-! ## Representation -/

/-- A machine and its source stand for an ideal machine. -/
structure Represents (e : Engine) (s : Ideal) : Prop where
  column : (e.machine.place.x.val : Int) = s.x % 80
  row : (e.machine.place.y.val : Int) = s.y % 25
  grid : ∀ p : Place, e.machine.grid.get p = s.plane.char p.x.val p.y.val
  stack : s.stack = e.machine.stack.values ++ₛ Stream'.const 0
  heading : e.machine.heading = s.heading
  stringMode : e.machine.stringMode = s.stringMode
  output : e.machine.output = s.output
  steps : e.machine.steps = s.steps
  status : e.machine.status = s.status
  interruptRequested : e.machine.interruptRequested = s.interruptRequested
  source : e.source = s.source

/-- An instruction that was carried out says the same on both sides. -/
structure SameEffect (source : Random.Source) (done : Event × Machine)
    (ideal : Event × Ideal) : Prop where
  event : done.1 = ideal.1
  represents : Represents ⟨done.2, source⟩ ideal.2

/-- An attempt comes to the same on both sides. -/
structure SameAttempt (r : Step) (ideal : Outcome × Ideal) : Prop where
  outcome : r.outcome = ideal.1
  represents : Represents ⟨r.machine, r.source⟩ ideal.2

namespace Represents

theorem start (grid : Grid) (source : Random.Source) :
    Represents (Engine.start grid source) (Ideal.start grid source) where
  column := rfl
  row := rfl
  grid p := by
    show grid.get p = grid.get (Place.wrap p.x.val p.y.val)
    rw [Place.wrap_self]
  stack := rfl
  heading := rfl
  stringMode := rfl
  output := rfl
  steps := rfl
  status := rfl
  interruptRequested := rfl
  source := rfl

variable {m : Machine} {source : Random.Source} {s : Ideal}

/-! What is read off. -/

theorem cell_at (h : Represents ⟨m, source⟩ s) (x y : Int) :
    m.grid.get (Place.wrap x y) = s.plane.char x y := by
  rw [h.grid, Place.wrap_x, Place.wrap_y, Plane.char_emod]

theorem cell (h : Represents ⟨m, source⟩ s) : m.cell = s.cell := by
  rw [Machine.cell, h.grid, h.column, h.row, Plane.char_emod, Ideal.cell]

theorem peek (h : Represents ⟨m, source⟩ s) : m.stack.peek = s.pop.1 := by
  rw [Ideal.pop, h.stack, Stack.peek]
  cases m.stack.values <;> rfl

/-! What is done. -/

theorem drop (h : Represents ⟨m, source⟩ s) :
    Represents ⟨m.drop, source⟩ s.pop.2 where
  __ := h
  stack := by
    show s.stack.tail = m.stack.values.tail ++ₛ Stream'.const 0
    rw [h.stack]
    -- An empty stack is left empty, and zeros without end lack nothing.
    cases m.stack.values <;> rfl

theorem peek_drop (h : Represents ⟨m, source⟩ s) :
    m.stack.drop.peek = s.pop.2.pop.1 :=
  h.drop.peek

theorem peek_drop_drop (h : Represents ⟨m, source⟩ s) :
    m.stack.drop.drop.peek = s.pop.2.pop.2.pop.1 :=
  h.drop.drop.peek

theorem push (h : Represents ⟨m, source⟩ s) (w : Word) :
    Represents ⟨m.push w, source⟩ (s.push w) where
  __ := h
  stack := by
    show Stream'.cons w s.stack = Stream'.cons w (m.stack.values ++ₛ Stream'.const 0)
    rw [h.stack]

theorem face (h : Represents ⟨m, source⟩ s) (d : Heading) :
    Represents ⟨{ m with heading := d }, source⟩ { s with heading := d } where
  __ := h
  heading := rfl

theorem enter (h : Represents ⟨m, source⟩ s) (mode : Bool) :
    Represents ⟨{ m with stringMode := mode }, source⟩
      { s with stringMode := mode } where
  __ := h
  stringMode := rfl

theorem become (h : Represents ⟨m, source⟩ s) (status : Status) :
    Represents ⟨{ m with status := status }, source⟩
      { s with status := status } where
  __ := h
  status := rfl

theorem interrupt (h : Represents ⟨m, source⟩ s) :
    Represents ⟨m.interrupt, source⟩ { s with interruptRequested := true } where
  __ := h
  interruptRequested := rfl

theorem draw (h : Represents ⟨m, source⟩ s) :
    Represents
      ⟨{ m with
          interruptRequested := m.interruptRequested || source.draw.interrupts },
        source.rest⟩
      { s with
        source := s.source.rest
        interruptRequested :=
          s.interruptRequested || s.source.draw.interrupts } where
  __ := h
  interruptRequested := by rw [← h.interruptRequested, ← h.source]
  source := by rw [← h.source]

theorem print (h : Represents ⟨m, source⟩ s) (c : Char) :
    Represents ⟨{ m with output := m.output.push c }, source⟩
      { s with output := s.output.push c } where
  __ := h
  output := by rw [← h.output]

theorem store (h : Represents ⟨m, source⟩ s) (x y : Int) (c : Char) :
    Represents ⟨{ m with grid := m.grid.set (Place.wrap x y) c }, source⟩
      { s with plane := s.plane.store x y c } where
  __ := h
  grid p := by
    rw [Grid.get_set, h.grid]
    simp only [Place.eq_wrap_iff, Plane.store]

theorem move (h : Represents ⟨m, source⟩ s) :
    Represents ⟨m.forward, source⟩ s.move where
  __ := h
  column := by
    show ((m.place.next m.heading).x.val : Int) = (s.x + s.heading.dx) % 80
    rw [Place.next, Place.wrap_x, h.column, h.heading, Int.emod_add_emod]
  row := by
    show ((m.place.next m.heading).y.val : Int) = (s.y + s.heading.dy) % 25
    rw [Place.next, Place.wrap_y, h.row, h.heading, Int.emod_add_emod]

theorem finish (h : Represents ⟨m, source⟩ s) :
    Represents ⟨m.finish, source⟩ s.finish where
  __ := h.move
  steps := by
    show m.steps + 1 = s.steps + 1
    rw [h.steps]

/-! ## One instruction -/

theorem pushing (h : Represents ⟨m, source⟩ s) (w : Word) :
    SameEffect source (m.pushing w) (s.pushing w) :=
  ⟨rfl, h.push w⟩

theorem turning (h : Represents ⟨m, source⟩ s) (d : Heading) :
    SameEffect source (m.turning d) (s.facing d) :=
  ⟨rfl, h.face d⟩

theorem turningRandomly (h : Represents ⟨m, source⟩ s) :
    SameEffect source.rest (m.turningRandomly source.draw) s.facingRandomly := by
  have hd := h.draw.face source.draw.heading
  have hs : source = s.source := h.source
  subst hs
  exact ⟨rfl, hd⟩

theorem combining (h : Represents ⟨m, source⟩ s) (op : BinaryOp) :
    SameEffect source
      (m.drop.drop.pushing (op.apply m.stack.drop.peek m.stack.peek))
      (s.combining op) := by
  rw [h.peek, h.peek_drop, BinaryOp.apply_eq_ofInt_exact]
  exact h.drop.drop.pushing _

theorem branching (h : Represents ⟨m, source⟩ s) (zero other : Heading) :
    SameEffect source
      (m.drop.turning (if m.stack.peek = 0 then zero else other))
      (s.pop.2.facing (if s.pop.1 = 0 then zero else other)) := by
  rw [h.peek]
  exact h.drop.turning _

theorem negating (h : Represents ⟨m, source⟩ s) :
    SameEffect source
      (m.drop.pushing (Word.truth (m.stack.peek == 0)))
      (s.pop.2.pushing (if s.pop.1 = 0 then 1 else 0)) := by
  rw [h.peek, Word.truth]
  simp only [beq_iff_eq]
  exact h.drop.pushing _

theorem duplicating (h : Represents ⟨m, source⟩ s) :
    SameEffect source (m.pushing m.stack.peek) (s.pushing s.pop.1) := by
  rw [h.peek]
  exact h.pushing _

/-- A value is taken and only told of. -/
theorem taking (h : Represents ⟨m, source⟩ s) (event : Word → Event) :
    SameEffect source (event m.stack.peek, m.drop) (event s.pop.1, s.pop.2) := by
  rw [h.peek]
  exact ⟨rfl, h.drop⟩

theorem swapping (h : Represents ⟨m, source⟩ s) :
    SameEffect source
      ((m.drop.drop.push m.stack.peek).pushing m.stack.drop.peek)
      ((s.pop.2.pop.2.push s.pop.1).pushing s.pop.2.pop.1) := by
  rw [h.peek, h.peek_drop]
  exact (h.drop.drop.push _).pushing _

theorem getting (h : Represents ⟨m, source⟩ s) :
    SameEffect source
      (m.drop.drop.pushing (Word.ofChar (m.grid.get
        (Place.wrap m.stack.peek.toInt m.stack.drop.peek.toInt))))
      (s.pop.2.pop.2.pushing (Word.ofChar
        (s.plane.char s.pop.1.toInt s.pop.2.pop.1.toInt))) := by
  rw [h.cell_at, h.peek, h.peek_drop]
  exact h.drop.drop.pushing _

theorem printing (h : Represents ⟨m, source⟩ s) :
    SameEffect source (m.drop.printing m.stack.peek.toChar)
      (.printedCharacter s.pop.1.toChar,
        { s.pop.2 with output := s.pop.2.output.push s.pop.1.toChar }) := by
  rw [h.peek]
  exact ⟨rfl, h.drop.print _⟩

theorem storing (h : Represents ⟨m, source⟩ s) :
    SameEffect source
      (m.drop.drop.drop.storing m.stack.peek m.stack.drop.peek
        m.stack.drop.drop.peek)
      (.stored (Place.wrap s.pop.1.toInt s.pop.2.pop.1.toInt)
          s.pop.2.pop.2.pop.1.toByteChar,
        { s.pop.2.pop.2.pop.2 with
          plane := s.plane.store s.pop.1.toInt s.pop.2.pop.1.toInt
            s.pop.2.pop.2.pop.1.toByteChar }) := by
  rw [h.peek, h.peek_drop, h.peek_drop_drop]
  exact ⟨rfl, h.drop.drop.drop.store _ _ _⟩

theorem quoting (h : Represents ⟨m, source⟩ s) (c : Char) :
    SameEffect source (m.quoting c) (s.quoting c) := by
  rw [Machine.quoting, Ideal.quoting]
  split
  · exact ⟨rfl, h.enter false⟩
  · exact h.pushing _

end Represents

theorem SameEffect.complete {source : Random.Source} {done : Event × Machine}
    {ideal : Event × Ideal} (h : SameEffect source done ideal) :
    SameAttempt (Machine.completing source done) (Ideal.complete ideal) where
  outcome := by
    show Outcome.did done.1 = Outcome.did ideal.1
    rw [h.event]
  represents := h.represents.finish

namespace Represents

variable {m : Machine} {source : Random.Source} {s : Ideal}

/-- A character that is none of the signs is a digit or does nothing. -/
theorem other (h : Represents ⟨m, source⟩ s) (c : Char) :
    SameAttempt (m.execute source ((Instruction.ofDigit? c).getD .nop))
      (Ideal.complete
        (if '0' ≤ c ∧ c ≤ '9' then
          s.pushing (Int64.ofInt (c.toNat - '0'.toNat)) else (.idle, s))) := by
  have hdigit : ('0' ≤ c ∧ c ≤ '9') ↔ 48 ≤ c.toNat ∧ c.toNat ≤ 57 := Iff.rfl
  by_cases hc : 48 ≤ c.toNat ∧ c.toNat ≤ 57
  · rw [if_pos (hdigit.mpr hc), Instruction.ofDigit?, dif_pos hc]
    have hvalue : ((c.toNat - 48 : Nat) : Int) = (c.toNat : Int) - '0'.toNat := by
      rw [show '0'.toNat = 48 from rfl]
      omega
    rw [← hvalue]
    exact (h.pushing _).complete
  · rw [if_neg (mt hdigit.mp hc), Instruction.ofDigit?, dif_neg hc]
    exact SameEffect.complete ⟨rfl, h⟩

/-- A character does on the machine what the table says that it does. -/
theorem execute (h : Represents ⟨m, source⟩ s) (c : Char) :
    SameAttempt (m.execute source (Instruction.ofChar c)) (s.execute c) := by
  unfold Instruction.ofChar
  split
  · exact (h.turning _).complete
  · exact (h.turning _).complete
  · exact (h.turning _).complete
  · exact (h.turning _).complete
  · exact h.turningRandomly.complete
  · exact (h.branching _ _).complete
  · exact (h.branching _ _).complete
  · exact SameEffect.complete ⟨rfl, h.enter true⟩
  · exact (h.combining .add).complete
  · exact (h.combining .sub).complete
  · exact (h.combining .mul).complete
  · exact (h.combining .div).complete
  · exact (h.combining .mod).complete
  · exact (h.combining .greater).complete
  · exact h.negating.complete
  · exact h.duplicating.complete
  · exact h.swapping.complete
  · exact (h.taking Event.dropped).complete
  · exact (h.taking Event.printedInteger).complete
  · exact h.printing.complete
  · exact ⟨rfl, h.become _⟩
  · exact ⟨rfl, h.become _⟩
  · exact h.getting.complete
  · exact h.storing.complete
  · exact SameEffect.complete ⟨rfl, h.move⟩
  · exact ⟨rfl, h.become _⟩
  · have hact : s.execute c = Ideal.complete
        (if '0' ≤ c ∧ c ≤ '9' then
          s.pushing (Int64.ofInt (c.toNat - '0'.toNat)) else (.idle, s)) := by
      unfold Ideal.execute
      split <;> try contradiction
      unfold Ideal.act
      split <;> try contradiction
      rfl
    rw [hact]
    exact h.other c

/-! ## One call -/

theorem step (h : Represents ⟨m, source⟩ s) :
    SameAttempt (m.step source) s.step := by
  have hstatus : m.status = s.status := h.status
  have hrequest : s.interruptRequested = true ↔ m.interruptRequested = true := by
    rw [← h.interruptRequested]
  have hmode : s.stringMode = true ↔ m.stringMode = true := by
    rw [← h.stringMode]
  rw [Machine.step, Ideal.step, ← hstatus]
  cases m.status with
  | halted => exact ⟨rfl, h⟩
  | interrupted => exact ⟨rfl, h⟩
  | awaiting input =>
      simp only []
      by_cases hr : m.interruptRequested = true
      · rw [if_pos hr, if_pos (hrequest.mpr hr)]
        exact ⟨rfl, h.become _⟩
      · rw [if_neg hr, if_neg (mt hrequest.mp hr)]
        exact ⟨rfl, h⟩
  | running =>
      simp only []
      by_cases hr : m.interruptRequested = true
      · rw [if_pos hr, if_pos (hrequest.mpr hr)]
        exact ⟨rfl, h.become _⟩
      · rw [if_neg hr, if_neg (mt hrequest.mp hr), h.cell]
        by_cases hm : m.stringMode = true
        · rw [if_pos hm, if_pos (hmode.mpr hm)]
          exact (h.quoting _).complete
        · rw [if_neg hm, if_neg (mt hmode.mp hm)]
          exact h.execute _

theorem resume (h : Represents ⟨m, source⟩ s) (line : String) :
    (Engine.call ⟨m, source⟩ (.resume line)).1 = (s.resume line).1 ∧
      Represents (Engine.call ⟨m, source⟩ (.resume line)).2 (s.resume line).2 := by
  have hstatus : m.status = s.status := h.status
  simp only [Engine.call, Machine.resume, Ideal.resume, ← hstatus]
  cases m.status with
  | awaiting input => exact ⟨rfl, ((h.become .running).push _).finish⟩
  | running => exact ⟨rfl, h⟩
  | halted => exact ⟨rfl, h⟩
  | interrupted => exact ⟨rfl, h⟩

theorem call {e : Engine} (h : Represents e s) (c : Call) :
    (e.call c).1 = (s.call c).1 ∧ Represents (e.call c).2 (s.call c).2 := by
  obtain ⟨m, source⟩ := e
  cases c with
  | step =>
      have hstep := h.step
      refine ⟨?_, hstep.represents⟩
      show Answer.came (m.step source).outcome = Answer.came s.step.1
      rw [hstep.outcome]
  | resume line => exact h.resume line
  | interrupt => exact ⟨rfl, h.interrupt⟩

end Represents

/-- The machine refines the ideal machine. Whatever is called, in whatever order,
every call is answered alike, and after the last one the machine stands for the
ideal machine. -/
theorem machine_refines_ideal (grid : Grid) (source : Random.Source)
    (calls : List Call) :
    ((Engine.start grid source).perform calls).1 =
        ((Ideal.start grid source).perform calls).1 ∧
      Represents ((Engine.start grid source).perform calls).2
        ((Ideal.start grid source).perform calls).2 :=
  perform_simulation Represents (fun _ _ c h => Represents.call h c)
    calls (Represents.start grid source)

end Funge93
