import Funge93.Proofs.Attempt

/-!
# The machines that can be met

A machine that is handed around is operated in three ways. It is stepped, it is run
until an attempt does not complete an instruction, and it is given a line; each step
and each run brings a source of its own. Besides that anybody may ask at any time
that it be stopped. The machines that such a life leads through, from a program space
on, are the reachable ones. A run that never comes back leads nowhere, and all that
it passes through is reached by steps.

What is proved about them is that the status never lies about the cell under the
pointer. A machine that waits stands outside a string on the character that asks, a
halted one on the character that halts, although programs write into their own
cells: whatever sets such a status has just read the character, and nothing moves or
writes before the status is left again. Along with it goes that only an interruption
that was asked for interrupts, and that a cell differs from what it was in the
beginning only by holding a byte.
-/

namespace Funge93

/-! ## Operations -/

inductive Operation where
  | step (source : Random.Source)
  | run (source : Random.Source)
  | resume (line : String)

inductive Reply where
  /-- What came of the last attempt, and the source that it left. -/
  | came (outcome : Outcome) (source : Random.Source)
  | took (outcome : Outcome)
  | refused (error : Machine.NotAwaiting)

namespace Machine

/-- A run comes back with an attempt that does not complete an instruction, after as
many as it takes. -/
def Returns (m : Machine) (source : Random.Source) (r : Step) : Prop :=
  ∃ n, (m.step source).proceed n = r ∧ r.outcome.isCompletion = false

/-- The replies of a machine to operations, and the machine after each. -/
inductive Performs (m : Machine) : Operation → Reply → Machine → Prop where
  | step (source : Random.Source) :
    Performs m (.step source) (.came (m.step source).outcome (m.step source).source)
      (m.step source).machine
  | run {source : Random.Source} {r : Step} (h : m.Returns source r) :
    Performs m (.run source) (.came r.outcome r.source) r.machine
  | take {line : String} {outcome : Outcome} {m' : Machine}
      (h : m.resume line = (.ok outcome, m')) :
    Performs m (.resume line) (.took outcome) m'
  | refuse {line : String} {error : NotAwaiting} {m' : Machine}
      (h : m.resume line = (.error error, m')) :
    Performs m (.resume line) (.refused error) m'

inductive Reachable (grid : Grid) : Machine → Prop where
  | start : Reachable grid (Machine.start grid)
  | perform {m m' : Machine} {operation : Operation} {reply : Reply}
      (h : Reachable grid m) (performs : m.Performs operation reply m') :
    Reachable grid m'
  | interrupt {m : Machine} (h : Reachable grid m) : Reachable grid m.interrupt

end Machine

/-- What every attempt keeps, a run keeps. -/
theorem Step.proceed_keeps {P : Machine → Prop}
    (hstep : ∀ m source, P m → P (m.step source).machine) (n : Nat) {r : Step}
    (h : P r.machine) : P (r.proceed n).machine := by
  induction n generalizing r with
  | zero => exact h
  | succ n ih =>
      rw [proceed]
      split
      · exact ih (hstep _ _ h)
      · exact h

/-! ## The status and the cell under the pointer -/

/-- The character that a machine with this status stands on. -/
def Status.sign? : Status → Option Char
  | awaiting .integer => some '&'
  | awaiting .character => some '~'
  | halted => some '@'
  | running => none
  | interrupted => none

/-- The character of an instruction that leaves a status of its own behind. -/
def Instruction.sign? : Instruction → Option Char
  | ask .integer => some '&'
  | ask .character => some '~'
  | halt => some '@'
  | _ => none

theorem Instruction.glyph?_of_sign? {i : Instruction} {sign : Char}
    (h : i.sign? = some sign) : i.glyph? = some sign := by
  cases i with
  | ask input => cases input <;> exact h
  | halt => exact h
  | _ => cases h

/-- Each of those instructions has one character only. -/
theorem Instruction.eq_of_sign?_ofChar {c sign : Char}
    (h : (ofChar c).sign? = some sign) : c = sign :=
  eq_of_ofChar_eq rfl (glyph?_of_sign? h)

theorem Word.toNat_toByteChar_lt (w : Word) : w.toByteChar.toNat < 256 := by
  have hcode := w.toNat_toByteChar
  omega

namespace Machine

/-- What holds of a machine that began with a program space. -/
structure Consistent (grid : Grid) (m : Machine) : Prop where
  sign : ∀ c, m.status.sign? = some c → m.stringMode = false ∧ m.cell = c
  requested : m.status = .interrupted → m.interruptRequested = true
  cells : ∀ p, m.grid.get p = grid.get p ∨ (m.grid.get p).toNat < 256

namespace Consistent

variable {grid : Grid} {m m' : Machine}

theorem start (grid : Grid) : Consistent grid (Machine.start grid) where
  sign c h := by cases h
  requested h := by cases h
  cells p := .inl rfl

theorem of_running (hrunning : m'.status = .running)
    (hcells : ∀ p, m'.grid.get p = grid.get p ∨ (m'.grid.get p).toNat < 256) :
    Consistent grid m' where
  sign c h := by
    rw [hrunning] at h
    cases h
  requested h := by
    rw [hrunning] at h
    cases h
  cells := hcells

theorem cells_set (h : Consistent grid m) (place : Place) (w : Word) (p : Place) :
    (m.grid.set place w.toByteChar).get p = grid.get p ∨
      ((m.grid.set place w.toByteChar).get p).toNat < 256 := by
  rw [Grid.get_set]
  split
  · exact .inr w.toNat_toByteChar_lt
  · exact h.cells p

theorem interrupted (h : Consistent grid m) (hrequest : m.interruptRequested = true) :
    Consistent grid { m with status := .interrupted } where
  sign c hc := by cases hc
  requested _ := hrequest
  cells := h.cells

theorem execute (h : Consistent grid m) (hrunning : m.status = .running)
    (hmode : m.stringMode = false) (source : Random.Source) :
    Consistent grid (m.execute source (Instruction.ofChar m.cell)).machine := by
  have hsign : ∀ c, (Instruction.ofChar m.cell).sign? = some c → m.cell = c :=
    fun _ => Instruction.eq_of_sign?_ofChar
  cases hi : Instruction.ofChar m.cell with
  | ask input =>
      rw [hi] at hsign
      refine ⟨?_, ?_, h.cells⟩
      · intro c hc
        refine ⟨hmode, hsign c ?_⟩
        cases input <;> exact hc
      · intro hstatus
        cases hstatus
  | halt =>
      rw [hi] at hsign
      refine ⟨?_, ?_, h.cells⟩
      · intro c hc
        exact ⟨hmode, hsign c hc⟩
      · intro hstatus
        cases hstatus
  | put => exact of_running hrunning (h.cells_set _ _)
  | _ => exact of_running hrunning h.cells

theorem step (h : Consistent grid m) (source : Random.Source) :
    Consistent grid (m.step source).machine := by
  rw [Machine.step]
  split
  · exact h
  · exact h
  · next hrunning =>
      split
      · next hrequest => exact h.interrupted hrequest
      · split
        · refine of_running ?_ ?_
          · show (m.quoting m.cell).2.status = .running
            rw [quoting]
            split <;> exact hrunning
          · show ∀ p, (m.quoting m.cell).2.grid.get p = grid.get p ∨
              ((m.quoting m.cell).2.grid.get p).toNat < 256
            rw [quoting]
            split <;> exact h.cells
        · next hmode => exact h.execute hrunning (Bool.eq_false_iff.mpr hmode) source
  · next input hawaiting =>
      split
      · next hrequest => exact h.interrupted hrequest
      · exact h

theorem interrupt (h : Consistent grid m) : Consistent grid m.interrupt :=
  ⟨h.sign, fun _ => rfl, h.cells⟩

/-- A line that is taken sets the machine running and writes nothing. -/
theorem resume (h : Consistent grid m) {line : String} {outcome : Outcome}
    (htaken : m.resume line = (.ok outcome, m')) : Consistent grid m' := by
  obtain ⟨input, -, -, rfl⟩ := of_resume_ok htaken
  exact of_running rfl h.cells

theorem perform (h : Consistent grid m) {operation : Operation} {reply : Reply}
    (performs : m.Performs operation reply m') : Consistent grid m' := by
  cases performs with
  | step source => exact h.step source
  | run hreturns =>
      obtain ⟨n, rfl, -⟩ := hreturns
      exact Step.proceed_keeps (P := Consistent grid)
        (fun _ source hm => hm.step source) n (h.step _)
  | take htaken => exact h.resume htaken
  | refuse hrefused =>
      obtain ⟨-, -, rfl⟩ := of_resume_error hrefused
      exact h

end Consistent

theorem Reachable.consistent {grid : Grid} {m : Machine} (h : Reachable grid m) :
    Consistent grid m := by
  induction h with
  | start => exact .start grid
  | perform _ performs ih => exact ih.perform performs
  | interrupt _ ih => exact ih.interrupt

/-- In every machine that can be met, the pointer is on the torus, a status that was
set by a character is found on that character and outside a string, an interrupted
machine was asked to stop, and each cell holds what it held in the beginning or a
byte. -/
theorem status_agrees_with_cell {grid : Grid} {m : Machine} (h : Reachable grid m) :
    (m.place.x.val < 80 ∧ m.place.y.val < 25) ∧
      (m.status = .awaiting .integer → m.stringMode = false ∧ m.cell = '&') ∧
      (m.status = .awaiting .character → m.stringMode = false ∧ m.cell = '~') ∧
      (m.status = .halted → m.stringMode = false ∧ m.cell = '@') ∧
      (m.status = .interrupted → m.interruptRequested = true) ∧
      ∀ p, m.grid.get p = grid.get p ∨ (m.grid.get p).toNat < 256 := by
  have hconsistent := h.consistent
  refine ⟨⟨m.place.x.isLt, m.place.y.isLt⟩, ?_, ?_, ?_, hconsistent.requested,
    hconsistent.cells⟩
  all_goals
    intro hstatus
    refine hconsistent.sign _ ?_
    rw [hstatus]
    rfl

/-- A program whose first instruction leads over a halt to a request for input. -/
theorem status_agrees_with_cell_bridged :
    let grid := Grid.ofLines [['#', '@', '&']]
    let first := ((Machine.start grid).step (.seeded 0)).machine
    let m := (first.step (.seeded 1)).machine
    Reachable grid m ∧ m.status = .awaiting .integer ∧ m.stringMode = false ∧
      m.cell = '&' := by
  intro grid first m
  have hfirst : Reachable grid first := .perform .start (.step _)
  have hreachable : Reachable grid m := .perform hfirst (.step _)
  have hstatus : m.status = .awaiting .integer := by decide +kernel
  have h := status_agrees_with_cell hreachable
  exact ⟨hreachable, hstatus, h.2.1 hstatus⟩

end Machine

end Funge93
